import Sequencer.Proofs.Host.Requests
import Sequencer.Proofs.Pool.Cancellation
import Sequencer.Proofs.Pool.Liveness

/-!
# The boundary between a host and the library

A host calls the native that compiles command lists, polls, and runs the library until it is idle,
in any order, while the workers of the pool act. The boundary is what both sides hold: a session of
the pool and the state of the host. It takes one small step at a time, so that a worker may act
between any two of them.

Every run of the boundary is a run of its session (`Boundary.Run.session`), so what holds of pools
holds beneath a host. Letting the workers act and taking completions, as the functions of the
embedding do, are runs of the boundary.
-/

namespace Sequencer

open Native

variable {σ : Type}

/-! ## Calls that make jobs -/

namespace Pool

variable {τ : Type}

/-- A pool shows the source and the ticket of the job that was submitted last. -/
theorem eq_of_register_send {pool : Pool τ} {source source' : List Char} {id id' : JobId}
    {ticket ticket' : τ}
    (same : (pool.send source).register id ticket = (pool.send source').register id' ticket') :
    source = source' ∧ ticket = ticket' := by
  have queues : pool.queue ++ [⟨⟨pool.nextId⟩, source⟩] =
      pool.queue ++ [⟨⟨pool.nextId⟩, source'⟩] :=
    congrArg Pool.queue same
  have pendings : pool.pending ++ [(id, ticket)] = pool.pending ++ [(id', ticket')] :=
    congrArg Pool.pending same
  have tasks := List.append_cancel_left queues
  have jobs := List.append_cancel_left pendings
  cases tasks
  cases jobs
  exact ⟨rfl, rfl⟩

end Pool

namespace Embedding

variable {host : Host σ} {limits : Limits} {arguments : List Value} {pool : Pool Callback}
  {state after : σ}

/-- A call that asks for a job makes it when there is room. -/
theorem call_of_room {source : List Char} {callback : Callback}
    (asks : Asks arguments source callback) (room : pool.isFull = false) :
    (ofHost host limits).call "labctrl.parse_cmdlist" arguments ⟨pool, state⟩ =
      (.ok .null, ⟨(pool.send source).register ⟨pool.nextId⟩ callback, state⟩) := by
  have submitted : pool.submit source callback =
      .ok (⟨pool.nextId⟩, (pool.send source).register ⟨pool.nextId⟩ callback) :=
    Pool.submit_eq_ok_iff.mpr ⟨room, rfl, rfl⟩
  rw [call_of_asks host limits _ asks, submitted]

/-- A call that makes a job is answered with null, and its arguments ask for the job. -/
theorem asks_of_call_eq_ok {source : List Char} {callback : Callback} {id : JobId} {answer : Value}
    (called : (ofHost host limits).call "labctrl.parse_cmdlist" arguments ⟨pool, state⟩ =
      (.ok answer, ⟨(pool.send source).register id callback, after⟩)) :
    answer = .null ∧ after = state ∧ Asks arguments source callback ∧
      ∀ error, ¬ Fails pool arguments error := by
  have passes : ∀ error, ¬ Fails pool arguments error := by
    intro error fails
    rw [call_of_fails host limits ⟨pool, state⟩ fails] at called
    cases called
  obtain ⟨source', callback', asks, room⟩ := exists_asks_of_not_fails passes
  rw [call_of_room asks room] at called
  have answers := congrArg Prod.fst called
  have pools := congrArg (fun result => result.2.pool) called
  have states := congrArg (fun result => result.2.state) called
  cases answers
  obtain ⟨rfl, rfl⟩ := Pool.eq_of_register_send pools
  exact ⟨rfl, states.symm, asks, passes⟩

end Embedding

/-! ## What happens -/

/-- What happens at the boundary in one step. -/
inductive Happening where
  /-- A call failed. -/
  | failed (arguments : List Value) (error : CallError)
  /-- A call put a job into the queue, and it goes on to answer with a value. -/
  | queued (id : JobId) (source : List Char) (callback : Callback) (arguments : List Value)
      (answer : Value)
  /-- The call that had put a job into the queue came back with its answer. -/
  | answered (id : JobId) (callback : Callback)
  /-- The host began to poll or to run the library until it is idle. -/
  | began (call : Call)
  /-- The functions of the host were called with the outcome of a job. -/
  | told (id : JobId) (callback : Callback) (outcome : Outcome) (calls : List HostCall)
  | returned (call : Call) (count : Nat)
  | worked (index : Nat)
  /-- The host did something of its own. -/
  | acted
  /-- A completion was taken of a job that is not pending. -/
  | unknown (id : JobId)
  /-- A crash was raised where the host would have been told of a job. -/
  | raised (id : JobId) (callback : Callback) (crash : Crash)
  /-- The pending jobs were given up because all workers had left. -/
  | deserted (jobs : List (JobId × Callback))

namespace Happening

/-- What happens to the pool. -/
def event? : Happening → Option (Event Callback)
  | .failed .. | .acted => none
  | .queued id source _ _ _ => some (.sent id source)
  | .answered id callback => some (.accepted id callback)
  | .began call => some (.began call)
  | .told id callback outcome _ => some (.handled id callback outcome)
  | .returned call count => some (.returned call count)
  | .worked index => some (.worked index)
  | .unknown id => some (.unknown id)
  | .raised id callback crash => some (.raised id callback crash)
  | .deserted jobs => some (.deserted jobs)

/-- The job that a call put into the queue. -/
def queued? : Happening → Option JobId
  | .queued id _ _ _ _ => some id
  | _ => none

/-- The job of which the host was told. -/
def told? : Happening → Option JobId
  | .told id _ _ _ => some id
  | _ => none

/-- Whether the library is ready for what happens though it never comes about. -/
def isUnforeseen : Happening → Bool
  | .unknown _ | .raised .. | .deserted _ => true
  | _ => false

end Happening

namespace Trace

/-- What happened to the pool. -/
def beneath (trace : List Happening) : List (Event Callback) := trace.filterMap Happening.event?

/-- The jobs that calls put into the queue, in that order. -/
def queued (trace : List Happening) : List JobId := trace.filterMap Happening.queued?

/-- The jobs of which the host was told, in that order. -/
def told (trace : List Happening) : List JobId := trace.filterMap Happening.told?

theorem mem_beneath {trace : List Happening} {happening : Happening} {event : Event Callback}
    (happened : happening ∈ trace) (shows : happening.event? = some event) :
    event ∈ beneath trace :=
  List.mem_filterMap.mpr ⟨happening, happened, shows⟩

theorem beneath_concat_of_none (trace : List Happening) {happening : Happening}
    (hidden : happening.event? = none) : beneath (trace ++ [happening]) = beneath trace := by
  simp [beneath, hidden]

theorem beneath_concat_of_some (trace : List Happening) {happening : Happening}
    {event : Event Callback} (shows : happening.event? = some event) :
    beneath (trace ++ [happening]) = beneath trace ++ [event] := by
  simp [beneath, shows]

/-- The jobs that are sent are those that calls put into the queue. -/
theorem map_fst_sent_beneath (trace : List Happening) :
    (sent (beneath trace)).map Prod.fst = queued trace := by
  rw [sent, beneath, List.filterMap_filterMap, List.map_filterMap, queued]
  congr 1
  funext happening
  cases happening <;> rfl

/-- The jobs that are handled are those of which the host was told. -/
theorem map_fst_handled_beneath (trace : List Happening) :
    (handled (beneath trace)).map Prod.fst = told trace := by
  rw [handled, beneath, List.filterMap_filterMap, List.map_filterMap, told]
  congr 1
  funext happening
  cases happening <;> rfl

/-- Nothing that happens at the boundary cancels a job. -/
theorem cancelled_not_mem_beneath (trace : List Happening) (id : JobId) (answer : Bool) :
    .cancelled id answer ∉ beneath trace := by
  intro inside
  obtain ⟨happening, -, shows⟩ := List.mem_filterMap.mp inside
  cases happening <;> cases shows

end Trace

/-! ## Steps -/

/-- What a host and the library hold. -/
structure Boundary (σ : Type) where
  session : Session Callback
  state : σ

namespace Boundary

/-- The boundary of a new pool and a host in a state. -/
def start (workers : Nat) (bound : Option Nat) (state : σ) : Boundary σ :=
  ⟨.start workers bound, state⟩

/-- What natives see. -/
def context (boundary : Boundary σ) : Context σ := ⟨boundary.session.pool, boundary.state⟩

/-- One step of the host, of the library in a call, or of a worker. A call of the native is what the
embedding makes of it, and the host is told of a job by the function that completes it, while it
notes its calls. -/
inductive Step (host : Host σ) (limits : Limits) : Boundary σ → Happening → Boundary σ → Prop where
  | fail {pool next gone state after arguments error}
      (failed : (Embedding.ofHost host limits).call "labctrl.parse_cmdlist" arguments
        ⟨pool, state⟩ = (.error error, ⟨next, after⟩)) :
      Step host limits ⟨⟨pool, .free, gone⟩, state⟩ (.failed arguments error)
        ⟨⟨next, .free, gone⟩, after⟩
  | turnAway {pool gone state arguments source callback} (empty : pool.IsDeserted gone)
      (asks : Asks arguments source callback) :
      Step host limits ⟨⟨pool, .free, gone⟩, state⟩ (.failed arguments (.refused .shutDown))
        ⟨⟨pool, .free, gone⟩, state⟩
  /-- The job may be taken by a worker before it is pending. -/
  | queue {pool sent gone state after arguments answer id source callback}
      (called : (Embedding.ofHost host limits).call "labctrl.parse_cmdlist" arguments
        ⟨pool, state⟩ = (.ok answer, ⟨sent.register id callback, after⟩))
      (step : Session.Step (.ofLimits limits) ⟨pool, .free, gone⟩ (.sent id source)
        ⟨sent, .registering id callback, gone⟩) :
      Step host limits ⟨⟨pool, .free, gone⟩, state⟩ (.queued id source callback arguments answer)
        ⟨⟨sent, .registering id callback, gone⟩, after⟩
  | answer {session next state id callback}
      (step : Session.Step (.ofLimits limits) session (.accepted id callback) next) :
      Step host limits ⟨session, state⟩ (.answered id callback) ⟨next, state⟩
  | begin {session next state call} (known : call = .poll ∨ call = .runUntilIdle)
      (step : Session.Step (.ofLimits limits) session (.began call) next) :
      Step host limits ⟨session, state⟩ (.began call) ⟨next, state⟩
  /-- The call goes on whatever the functions of the host answer. -/
  | tell {pool next gone state after call count id callback outcome calls}
      (step : Session.Step (.ofLimits limits) ⟨pool, .taking call count, gone⟩
        (.handled id callback outcome) ⟨next, .taking call (count + 1), gone⟩)
      (completed : callback.complete host.noting outcome (state, []) = ((), after, calls)) :
      Step host limits ⟨⟨pool, .taking call count, gone⟩, state⟩ (.told id callback outcome calls)
        ⟨⟨next, .taking call (count + 1), gone⟩, after⟩
  | comeBack {session next state call count}
      (step : Session.Step (.ofLimits limits) session (.returned call count) next) :
      Step host limits ⟨session, state⟩ (.returned call count) ⟨next, state⟩
  | work {session next state index}
      (step : Session.Step (.ofLimits limits) session (.worked index) next) :
      Step host limits ⟨session, state⟩ (.worked index) ⟨next, state⟩
  | act {session state after} (free : session.stage = .free) :
      Step host limits ⟨session, state⟩ .acted ⟨session, after⟩
  | skip {session next state id}
      (step : Session.Step (.ofLimits limits) session (.unknown id) next) :
      Step host limits ⟨session, state⟩ (.unknown id) ⟨next, state⟩
  | raise {session next state id callback crash}
      (step : Session.Step (.ofLimits limits) session (.raised id callback crash) next) :
      Step host limits ⟨session, state⟩ (.raised id callback crash) ⟨next, state⟩
  | desert {session next state jobs}
      (step : Session.Step (.ofLimits limits) session (.deserted jobs) next) :
      Step host limits ⟨session, state⟩ (.deserted jobs) ⟨next, state⟩

/-- Steps one after the other, with their trace. -/
inductive Run (host : Host σ) (limits : Limits) (first : Boundary σ) :
    List Happening → Boundary σ → Prop where
  | refl : Run host limits first [] first
  | next {trace middle happening last} (earlier : Run host limits first trace middle)
      (step : Step host limits middle happening last) :
      Run host limits first (trace ++ [happening]) last

variable {host : Host σ} {limits : Limits}

theorem Run.trans {first middle last : Boundary σ} {earlier later : List Happening}
    (run : Run host limits first earlier middle) (rest : Run host limits middle later last) :
    Run host limits first (earlier ++ later) last := by
  induction rest with
  | refl =>
      rw [List.append_nil]
      exact run
  | next before step inductionHypothesis =>
      rw [← List.append_assoc]
      exact .next inductionHypothesis step

theorem Run.cons {first middle last : Boundary σ} {happening : Happening} {later : List Happening}
    (step : Step host limits first happening middle) (rest : Run host limits middle later last) :
    Run host limits first (happening :: later) last :=
  (Run.next .refl step).trans rest

/-- A run comes by everything that happens in it. -/
theorem Run.exists_step {first last : Boundary σ} {before after : List Happening}
    {happening : Happening} (run : Run host limits first (before ++ happening :: after) last) :
    ∃ middle next, Run host limits first before middle ∧
      Step host limits middle happening next := by
  generalize same : before ++ happening :: after = trace at run
  induction run generalizing after with
  | refl => simp at same
  | @next trace middle final last earlier step inductionHypothesis =>
      rcases List.eq_nil_or_concat after with rfl | ⟨tail, other, rfl⟩
      · obtain ⟨rfl, sameHappening⟩ := List.append_inj' same rfl
        cases sameHappening
        exact ⟨middle, last, earlier, step⟩
      · rw [List.concat_eq_append, ← List.cons_append, ← List.append_assoc] at same
        exact inductionHypothesis (List.append_inj_left' same rfl)

/-! ## The session of a boundary -/

/-- A step of the boundary is a step of its session, or the session stays as it is. -/
theorem Step.session {first last : Boundary σ} {happening : Happening}
    (step : Step host limits first happening last) :
    (happening.event? = none ∧ last.session = first.session) ∨
      ∃ event, happening.event? = some event ∧
        Session.Step (.ofLimits limits) first.session event last.session := by
  cases step with
  | fail failed =>
      obtain ⟨same, -⟩ := (Embedding.call_eq_error_iff _ _ _).mp failed
      cases same
      exact .inl ⟨rfl, rfl⟩
  | turnAway | act => exact .inl ⟨rfl, rfl⟩
  | queue called step => exact .inr ⟨_, rfl, step⟩
  | answer step => exact .inr ⟨_, rfl, step⟩
  | begin known step => exact .inr ⟨_, rfl, step⟩
  | tell step completed => exact .inr ⟨_, rfl, step⟩
  | comeBack step => exact .inr ⟨_, rfl, step⟩
  | work step => exact .inr ⟨_, rfl, step⟩
  | skip step => exact .inr ⟨_, rfl, step⟩
  | raise step => exact .inr ⟨_, rfl, step⟩
  | desert step => exact .inr ⟨_, rfl, step⟩

/-- A run of the boundary is a run of its session. -/
theorem Run.session {first last : Boundary σ} {trace : List Happening}
    (run : Run host limits first trace last) :
    Session.Run (.ofLimits limits) first.session (Trace.beneath trace) last.session := by
  induction run with
  | refl => exact .refl
  | @next trace middle happening last earlier step inductionHypothesis =>
      rcases step.session with ⟨hidden, same⟩ | ⟨event, shows, step⟩
      · rw [Trace.beneath_concat_of_none _ hidden, same]
        exact inductionHypothesis
      · rw [Trace.beneath_concat_of_some _ shows]
        exact .next inductionHypothesis step

/-! ## Functions as runs -/

/-- What workers do is a run of the boundary. -/
theorem Run.of_worked {first last : Session Callback} {events : List (Event Callback)}
    (run : Session.Run (.ofLimits limits) first events last)
    (worked : ∀ event ∈ events, ∃ index, event = .worked index) (state : σ) :
    ∃ trace, Run host limits ⟨first, state⟩ trace ⟨last, state⟩ := by
  induction run with
  | refl => exact ⟨[], .refl⟩
  | next earlier step inductionHypothesis =>
      rw [List.forall_mem_append] at worked
      obtain ⟨index, rfl⟩ := worked.2 _ List.mem_cons_self
      obtain ⟨trace, before⟩ := inductionHypothesis worked.1
      exact ⟨_, before.next (.work step)⟩

/-- Taking completions and telling the host of them is a run of the boundary. A crash shows in its
trace. -/
theorem exists_run_drain (host : Host σ) (limits : Limits) (pool : Pool Callback) (call : Call)
    (wants : ∀ count, call.wantsMore count) (count : Nat) (gone : List Nat) (state : σ) :
    ∃ trace, Run host limits ⟨⟨pool, .taking call count, gone⟩, state⟩ trace
        ⟨⟨pool.drain.pool, Session.afterDrain call count pool.drain, gone⟩,
          ((Embedding.ofHost host limits).complete pool.drain.delivered state).2⟩ ∧
      ∀ crash, pool.drain.crash = some crash → ∃ happening ∈ trace, happening.isUnforeseen := by
  fun_induction Pool.drain pool generalizing count state with
  | case1 pool stopped =>
      refine ⟨[], .refl, ?_⟩
      intro crash crashed
      cases crashed
  | case2 pool receipt taken crash answer =>
      rcases receipt with ⟨next, id, result⟩
      cases answer
      obtain ⟨ticket, known⟩ := Session.exists_ticket?_of_crash taken rfl
      refine ⟨[.raised id ticket crash], ?_, ?_⟩
      · exact .cons (.raise (.raise (wants count) taken known)) .refl
      · exact fun _ _ => ⟨_, List.mem_cons_self, rfl⟩
  | case3 pool receipt taken given answer more inductionHypothesis =>
      rcases receipt with ⟨next, id, result⟩
      cases answer
      cases given with
      | none =>
          rcases inductionHypothesis (count + 1) state with ⟨trace, run, crashes⟩
          rw [Session.afterDrain_next]
          refine ⟨.unknown id :: trace, .cons (.skip (.skip (wants count) taken)) run, ?_⟩
          exact fun _ _ => ⟨_, List.mem_cons_self, rfl⟩
      | some given =>
          rcases given with ⟨callback, outcome⟩
          obtain ⟨calls, completed⟩ := callback.exists_complete_noting host outcome state
          rcases inductionHypothesis (count + 1) (callback.complete host outcome state).2 with
            ⟨trace, run, crashes⟩
          rw [Session.afterDrain_next]
          refine ⟨_, .cons (.tell (.handle (wants count) taken) completed) run, ?_⟩
          intro crash crashed
          obtain ⟨happening, happened, unforeseen⟩ := crashes crash crashed
          exact ⟨happening, List.mem_cons_of_mem _ happened, unforeseen⟩

end Boundary

end Sequencer
