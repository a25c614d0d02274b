import Sequencer.Job.Delivery
import Sequencer.Proofs.Pool.History

/-!
# Own results and cancellations

A job that is handled comes to what its own source is compiled to, unless its flag was set when a
worker looked at it. Only a cancellation of the job itself sets that flag, and the flag matters only
to the worker that looks at it. So sessions that differ in the flag of a job go on in the same way
until a worker looks at it (`Session.AlikeBut.goesOnAs`), and if one has looked already, they go on
in the same way for ever.
-/

namespace Sequencer

variable {τ : Type}

/-! ## Pools with other flags -/

namespace Pool

/-- A pool with other flags. -/
def withFlags (pool : Pool τ) (flags : List JobId) : Pool τ := { pool with cancelled := flags }

variable {pool : Pool τ} (flags : List JobId)

theorem submit_withFlags_eq_error_iff {source : List Char} {ticket : τ} {refusal : Refusal} :
    (pool.withFlags flags).submit source ticket = .error refusal ↔
      pool.submit source ticket = .error refusal := by
  have full : (pool.withFlags flags).isFull = pool.isFull := rfl
  unfold submit
  rw [full]
  split
  · rfl
  · simp

theorem takeOne?_withFlags {next : Pool τ} {id : JobId}
    {answer : Except Crash (Option (τ × Outcome))}
    (taken : pool.takeOne? = some ⟨next, id, answer⟩) :
    (pool.withFlags flags).takeOne? = some ⟨next.withFlags flags, id, answer⟩ := by
  rw [takeOne?_eq_some_iff] at taken ⊢
  rcases taken with ⟨left, completion, rest, completed, same⟩
  cases same
  exact ⟨left, completion, rest, completed, rfl⟩

/-- The answer to a cancellation says whether the job is pending. -/
theorem fst_cancel (pool : Pool τ) (id : JobId) : (pool.cancel id).1 = pool.isPending id := by
  unfold cancel
  cases pool.isPending id <;> rfl

theorem cancel_eq_self {id : JobId} (unknown : pool.isPending id = false) :
    (pool.cancel id).2 = pool := by
  unfold cancel
  rw [if_neg (by simp [unknown])]

theorem isPending_iff {id : JobId} :
    pool.isPending id = true ↔ id ∈ pool.pending.map Prod.fst := by
  simp [isPending]

variable {flags} {id : JobId}
  (others : ∀ other, other ≠ id → (other ∈ flags ↔ other ∈ pool.cancelled))

include others in
/-- A worker does the same with other flags, unless it looks at the one that differs. -/
theorem mark?_withFlags {index : Nat}
    (unseen : ∀ flagged, pool.mark? index ≠ some (id, .looked flagged)) :
    (pool.withFlags flags).mark? index = pool.mark? index := by
  unfold mark? at unseen ⊢
  rw [show (pool.withFlags flags).workers = pool.workers from rfl,
    show (pool.withFlags flags).queue = pool.queue from rfl]
  split
  · rfl
  · rename_i task found
    rw [found] at unseen
    have different : task.id ≠ id := by
      rintro rfl
      exact unseen _ rfl
    have same : (pool.withFlags flags).cancelled.contains task.id =
        pool.cancelled.contains task.id := by
      rw [Bool.eq_iff_iff, List.contains_iff_mem, List.contains_iff_mem]
      exact others task.id different
    rw [same]
  · rfl
  · rfl

include others in
/-- A cancellation does the same with other flags. -/
theorem exists_cancel_withFlags (target : JobId) :
    ∃ flags', (pool.withFlags flags).cancel target =
        ((pool.cancel target).1, (pool.cancel target).2.withFlags flags') ∧
      ∀ other, other ≠ id → (other ∈ flags' ↔ other ∈ (pool.cancel target).2.cancelled) := by
  have same : (pool.withFlags flags).isPending target = pool.isPending target := rfl
  unfold cancel
  rw [same]
  split
  · refine ⟨target :: flags, rfl, fun other different => ?_⟩
    rw [List.mem_cons, List.mem_cons, others other different]
  · exact ⟨flags, rfl, others⟩

include others in
theorem Works.withFlags {backend : Backend} {next : Pool τ} {index : Nat}
    (works : Works backend pool index next)
    (unseen : ∀ flagged, pool.mark? index ≠ some (id, .looked flagged)) :
    Works backend (pool.withFlags flags) index (next.withFlags flags) := by
  cases works with
  | take found waiting => exact .take found waiting
  | @heed task found flagged =>
      have different : task.id ≠ id := by
        rintro rfl
        exact unseen true (by simp [mark?, found, flagged])
      exact .heed found ((others _ different).mpr flagged)
  | @compile task found unflagged =>
      have different : task.id ≠ id := by
        rintro rfl
        exact unseen false (by simp [mark?, found, unflagged])
      exact .compile found fun flagged => unflagged ((others _ different).mp flagged)
  | complete found => exact .complete found
  | handBack found => exact .handBack found

end Pool

/-! ## Sessions that differ in one flag -/

namespace Session

/-- Sessions that differ at most in the flag of a job. -/
inductive AlikeBut (id : JobId) : Session τ → Session τ → Prop
  | intro {pool stage gone flags}
      (others : ∀ other, other ≠ id → (other ∈ flags ↔ other ∈ pool.cancelled)) :
      AlikeBut id ⟨pool, stage, gone⟩ ⟨pool.withFlags flags, stage, gone⟩

namespace AlikeBut

variable {id : JobId} {first first' : Session τ}

theorem symm (alike : AlikeBut id first first') : AlikeBut id first' first := by
  cases alike with
  | intro others => exact .intro fun other different => (others other different).symm

variable {backend : Backend}

/-- A step is taken in the same way in both sessions, unless a worker looks at the flag. -/
theorem step {last : Session τ} {event : Event τ} (alike : AlikeBut id first first')
    (step : Step backend first event last)
    (unseen : ∀ flagged, (Moment.mk first event).mark? ≠ some (id, .looked flagged)) :
    ∃ last', Step backend first' event last' ∧ AlikeBut id last last' ∧
      (Moment.mk first' event).mark? = (Moment.mk first event).mark? := by
  cases alike with
  | @intro pool stage gone flags others =>
    cases step with
    | refuse source staffed refused =>
        exact ⟨_, .refuse source staffed ((Pool.submit_withFlags_eq_error_iff flags).mpr refused),
          .intro others, rfl⟩
    | refuseDeserted empty => exact ⟨_, .refuseDeserted empty, .intro others, rfl⟩
    | send ticket staffed room => exact ⟨_, .send ticket staffed room, .intro others, rfl⟩
    | accept => exact ⟨_, .accept, .intro others, rfl⟩
    | @cancel _ _ target =>
        obtain ⟨flags', same, others'⟩ := Pool.exists_cancel_withFlags others target
        have cancel := @Step.cancel _ backend (pool.withFlags flags) gone target
        rw [same] at cancel
        exact ⟨_, cancel, .intro others', rfl⟩
    | begin => exact ⟨_, .begin, .intro others, rfl⟩
    | handle wants taken =>
        exact ⟨_, .handle wants (Pool.takeOne?_withFlags flags taken),
          .intro (Pool.cancelled_of_takeOne? taken ▸ others), rfl⟩
    | handleBreaking wants taken =>
        exact ⟨_, .handleBreaking wants (Pool.takeOne?_withFlags flags taken),
          .intro (Pool.cancelled_of_takeOne? taken ▸ others), rfl⟩
    | skip wants taken =>
        exact ⟨_, .skip wants (Pool.takeOne?_withFlags flags taken),
          .intro (Pool.cancelled_of_takeOne? taken ▸ others), rfl⟩
    | raise wants taken known =>
        exact ⟨_, .raise wants (Pool.takeOne?_withFlags flags taken) known,
          .intro (Pool.cancelled_of_takeOne? taken ▸ others), rfl⟩
    | desert wants left silent empty =>
        exact ⟨_, .desert wants left silent empty, .intro others, rfl⟩
    | comeBack notLast done => exact ⟨_, .comeBack notLast done, .intro others, rfl⟩
    | dismiss last done => exact ⟨_, .dismiss last done, .intro others, rfl⟩
    | finish empty => exact ⟨_, .finish empty, .intro others, rfl⟩
    | abandon unwound => exact ⟨_, .abandon unwound, .intro others, rfl⟩
    | work present heard stepped =>
        have works := Pool.advance?_eq_some_iff.mp stepped
        exact ⟨_, .work present heard
            (Pool.advance?_eq_some_iff.mpr (works.withFlags others unseen)),
          .intro (works.cancelled_eq ▸ others), Pool.mark?_withFlags others unseen⟩
    | leave present released => exact ⟨_, .leave present released, .intro others, rfl⟩

/-- Sessions that differ in the flag of a job go on in the same way as long as no worker looks at
it. -/
theorem history {last : Session τ} {moments : List (Moment τ)} (alike : AlikeBut id first first')
    (history : History backend first moments last)
    (unseen : ∀ flagged, .looked flagged ∉ Trace.marks moments id) :
    ∃ moments' last', History backend first' moments' last' ∧ AlikeBut id last last' ∧
      Trace.events moments' = Trace.events moments ∧
      ∀ other, Trace.marks moments' other = Trace.marks moments other := by
  induction history with
  | refl => exact ⟨[], first', .refl, alike, rfl, fun _ => rfl⟩
  | @next moments middle event last earlier step inductionHypothesis =>
      have unseenEarlier : ∀ flagged, .looked flagged ∉ Trace.marks moments id := by
        intro flagged seen
        apply unseen flagged
        rw [Trace.marks_append]
        exact List.mem_append_left _ seen
      have unseenLast : ∀ flagged, (Moment.mk middle event).mark? ≠ some (id, .looked flagged) := by
        intro flagged marked
        apply unseen flagged
        rw [Trace.marks_append, Trace.marks_of_mark?_eq_some marked, if_pos rfl]
        exact List.mem_append_right _ List.mem_cons_self
      obtain ⟨moments', middle', history', alike', events, marks⟩ :=
        inductionHypothesis unseenEarlier
      obtain ⟨last', step', alikeLast, mark⟩ := alike'.step step unseenLast
      refine ⟨moments' ++ [⟨middle', event⟩], last', .next history' step', alikeLast, ?_, ?_⟩
      · rw [Trace.events_append, Trace.events_append, events]
        rfl
      · intro other
        rw [Trace.marks_append, Trace.marks_append, marks]
        simp only [Trace.marks, List.filterMap_cons, List.filterMap_nil, mark]

end AlikeBut

/-- As long as no worker looks at the flag of a job, what can happen in one session can happen in
another, and the workers do the same with every job. -/
def GoesOnAs (backend : Backend) (id : JobId) (first first' : Session τ) : Prop :=
  ∀ moments last, History backend first moments last →
    (∀ flagged, .looked flagged ∉ Trace.marks moments id) →
    ∃ moments' last', History backend first' moments' last' ∧
      Trace.events moments' = Trace.events moments ∧
      ∀ other, Trace.marks moments' other = Trace.marks moments other

theorem AlikeBut.goesOnAs {backend : Backend} {id : JobId} {first first' : Session τ}
    (alike : AlikeBut id first first') : GoesOnAs backend id first first' := by
  intro moments last history unseen
  obtain ⟨moments', last', history', -, events, marks⟩ := alike.history history unseen
  exact ⟨moments', last', history', events, marks⟩

end Session

/-! ## The marks of a job -/

/-- Whether a mark is that of a look at a flag. -/
def Mark.isLook : Mark → Bool
  | .looked _ => true
  | _ => false

namespace Progress.Records

variable {backend : Backend} {source : List Char} {marks : List Mark}

/-- A settled job was cancelled or compiled, and its marks tell which. -/
theorem settled {result : Except Crash Outcome}
    (records : Records backend source marks (.settled result)) :
    (marks = [.taken, .looked true] ∧ result = .ok .cancelled) ∨
      (marks = [.taken, .looked false, .compiled source] ∧ execute backend source = result) := by
  generalize same : Progress.settled result = progress at records
  cases records with
  | waiting | held | compiling => cases same
  | cancelled =>
      cases same
      exact .inl ⟨rfl, rfl⟩
  | compiled =>
      cases same
      exact .inr ⟨rfl, rfl⟩

/-- A job that no worker has taken waits and has no marks. -/
theorem waiting_of_not_taken {progress : Progress}
    (records : Records backend source marks progress) (untaken : .taken ∉ marks) :
    marks = [] ∧ progress = .waiting source := by
  cases records with
  | waiting => exact ⟨rfl, rfl⟩
  | held | compiling | cancelled | compiled => exact absurd List.mem_cons_self untaken

/-- The flag of a job is looked at once. -/
theorem not_looked_again {progress : Progress} {first second : List Mark} {flagged : Bool}
    (records : Records backend source (first ++ second) progress)
    (seen : .looked flagged ∈ first) (again : Bool) : .looked again ∉ second := by
  intro seenAgain
  have once : (first ++ second).countP Mark.isLook ≤ 1 := by
    generalize first ++ second = marks at records
    cases records <;> simp [Mark.isLook, List.countP_cons]
  have before : 0 < first.countP Mark.isLook := List.countP_pos_iff.mpr ⟨_, seen, rfl⟩
  have behind : 0 < second.countP Mark.isLook := List.countP_pos_iff.mpr ⟨_, seenAgain, rfl⟩
  rw [List.countP_append] at once
  omega

end Progress.Records

namespace Trace

theorem exists_of_mem_marks {moments : List (Moment τ)} {id : JobId} {mark : Mark}
    (inside : mark ∈ marks moments id) :
    ∃ before moment after, moments = before ++ moment :: after ∧
      moment.mark? = some (id, mark) := by
  obtain ⟨⟨other, own⟩, marked, same⟩ := List.mem_filterMap.mp inside
  obtain ⟨moment, happened, found⟩ := List.mem_filterMap.mp marked
  obtain ⟨before, after, rfl⟩ := List.append_of_mem happened
  split at same
  · rename_i sameId
    cases same
    cases sameId
    exact ⟨before, moment, after, rfl, found⟩
  · cases same

end Trace

namespace Trace

variable {trace : List (Event τ)} {id : JobId} {ticket : τ}

theorem mem_accepted_iff : (id, ticket) ∈ accepted trace ↔ .accepted id ticket ∈ trace := by
  rw [accepted, List.mem_filterMap]
  constructor
  · rintro ⟨event, happened, same⟩
    cases event <;> cases same
    exact happened
  · intro happened
    exact ⟨_, happened, rfl⟩

theorem mem_handled_iff :
    (id, ticket) ∈ handled trace ↔ ∃ outcome, .handled id ticket outcome ∈ trace := by
  rw [handled, List.mem_filterMap]
  constructor
  · rintro ⟨event, happened, same⟩
    cases event <;> cases same
    exact ⟨_, happened⟩
  · rintro ⟨outcome, happened⟩
    exact ⟨_, happened, rfl⟩

theorem mem_raised_iff :
    (id, ticket) ∈ raised trace ↔ ∃ crash, .raised id ticket crash ∈ trace := by
  rw [raised, List.mem_filterMap]
  constructor
  · rintro ⟨event, happened, same⟩
    cases event <;> cases same
    exact ⟨_, happened⟩
  · rintro ⟨crash, happened⟩
    exact ⟨_, happened, rfl⟩

end Trace

/-- A look at a flag sees the flag. -/
theorem Moment.contains_of_looked {moment : Moment τ} {id : JobId} {flagged : Bool}
    (looked : moment.mark? = some (id, .looked flagged)) :
    moment.session.pool.cancelled.contains id = flagged := by
  unfold mark? Pool.mark? at looked
  split at looked
  · split at looked
    · simp at looked
    · simp only [Option.some.injEq, Prod.mk.injEq, Mark.looked.injEq] at looked
      rcases looked with ⟨rfl, seen⟩
      exact seen
    · simp at looked
    · cases looked
  · cases looked

namespace Session

variable {backend : Backend}

/-! ## Jobs of a history -/

namespace Recorded

variable {moments : List (Moment τ)} {session : Session τ}

theorem lt_of_sent (recorded : Recorded backend moments session) {id : JobId} {source : List Char}
    (sent : .sent id source ∈ Trace.events moments) : id.number < session.pool.nextId := by
  rw [← List.mem_range, ← recorded.sent]
  exact List.mem_map.mpr ⟨_, Trace.mem_sent_iff.mpr sent, rfl⟩

/-- A job is sent once, with one source. -/
theorem source_eq (recorded : Recorded backend moments session) {id : JobId}
    {source source' : List Char} (sent : .sent id source ∈ Trace.events moments)
    (sent' : .sent id source' ∈ Trace.events moments) : source = source' := by
  have once : ((Trace.sent (Trace.events moments)).map (·.1.number)).Nodup :=
    recorded.sent ▸ List.nodup_range
  have same := List.inj_on_of_nodup_map once (Trace.mem_sent_iff.mpr sent)
    (Trace.mem_sent_iff.mpr sent') rfl
  exact congrArg Prod.snd same

/-- The marks of a job with a number that is used say how far it is. -/
theorem exists_records (recorded : Recorded backend moments session) {id : JobId}
    (used : id.number < session.pool.nextId) :
    ∃ source progress, .sent id source ∈ Trace.events moments ∧
      (id, progress) ∈ Session.known moments session ∧
      Progress.Records backend source (Trace.marks moments id) progress := by
  obtain ⟨⟨other, progress⟩, inside, sameNumber⟩ :=
    List.mem_map.mp (recorded.known.mem_iff.mpr (List.mem_range.mpr used))
  have same : other = id := congrArg JobId.mk sameNumber
  subst same
  obtain ⟨source, sent, records⟩ := recorded.records _ inside
  exact ⟨source, progress, Trace.mem_sent_iff.mp sent, inside, records⟩

end Recorded

/-- A cancellation is a step of an owner who is doing nothing else. -/
theorem Step.of_cancelled {first last : Session τ} {id : JobId} {answer : Bool}
    (step : Step backend first (.cancelled id answer) last) :
    first.stage = .free ∧ answer = first.pool.isPending id ∧
      last = ⟨(first.pool.cancel id).2, .free, first.gone⟩ := by
  cases step with
  | cancel => exact ⟨rfl, Pool.fst_cancel .., rfl⟩

/-- A cancellation leaves a session as it is but for the flag of the job. -/
theorem Step.alikeBut_of_cancelled {first last : Session τ} {id : JobId} {answer : Bool}
    (step : Step backend first (.cancelled id answer) last) : AlikeBut id first last := by
  rcases first with ⟨pool, stage, gone⟩
  obtain ⟨rfl, -, rfl⟩ := step.of_cancelled
  obtain ⟨flags, same⟩ : ∃ flags, (pool.cancel id).2 = pool.withFlags flags ∧
      ∀ other, other ≠ id → (other ∈ flags ↔ other ∈ pool.cancelled) := by
    unfold Pool.cancel
    split
    · exact ⟨id :: pool.cancelled, rfl, fun other different => by simp [different]⟩
    · exact ⟨pool.cancelled, rfl, fun _ _ => Iff.rfl⟩
  rw [same.1]
  exact .intro same.2

section Start

variable {workers : Nat} {bound : Option Nat} {moments : List (Moment τ)} {session : Session τ}

/-- As long as the pool has not ended, a job is pending when it was accepted and has neither been
handled nor raised. -/
theorem Run.isPending_iff {trace : List (Event τ)}
    (run : Run backend (start workers bound) trace session) (going : session.stage ≠ .ended)
    (id : JobId) :
    session.pool.isPending id = true ↔
      (∃ ticket, .accepted id ticket ∈ trace) ∧
        (∀ ticket outcome, .handled id ticket outcome ∉ trace) ∧
        ∀ ticket crash, .raised id ticket crash ∉ trace := by
  have accounted := run.accounted
  rw [run.dropped_eq_nil (.start workers bound) going, List.nil_append] at accounted
  have once := (accounted.map Prod.fst).nodup_iff.mp run.nodup_accepted
  rw [List.map_append, List.map_append] at once
  obtain ⟨-, others, apartHandled⟩ := List.nodup_append.mp once
  obtain ⟨-, -, apartRaised⟩ := List.nodup_append.mp others
  rw [Pool.isPending_iff]
  constructor
  · intro inside
    obtain ⟨⟨_, ticket⟩, pending, rfl⟩ := List.mem_map.mp inside
    refine ⟨⟨ticket, Trace.mem_accepted_iff.mp (accounted.mem_iff.mpr ?_)⟩, ?_, ?_⟩
    · simp [pending]
    · intro ticket' outcome happened
      have handled := List.mem_map_of_mem (f := Prod.fst)
        (Trace.mem_handled_iff.mpr ⟨outcome, happened⟩)
      exact apartHandled _ handled _ (List.mem_append_right _ inside) rfl
    · intro ticket' crash happened
      have raised := List.mem_map_of_mem (f := Prod.fst)
        (Trace.mem_raised_iff.mpr ⟨crash, happened⟩)
      exact apartRaised _ raised _ inside rfl
  · rintro ⟨⟨ticket, happened⟩, unhandled, unraised⟩
    have accepted := accounted.mem_iff.mp (Trace.mem_accepted_iff.mpr happened)
    rcases List.mem_append.mp accepted with handled | others
    · obtain ⟨outcome, handled⟩ := Trace.mem_handled_iff.mp handled
      exact absurd handled (unhandled _ _)
    · rcases List.mem_append.mp others with raised | pending
      · obtain ⟨crash, raised⟩ := Trace.mem_raised_iff.mp raised
        exact absurd raised (unraised _ _)
      · exact List.mem_map.mpr ⟨_, pending, rfl⟩

/-- A job that has been sent and not taken is pending, once its submission has ended. -/
theorem History.isPending_of_not_taken
    (history : History backend (start workers bound) moments session)
    (free : session.stage = .free) {id : JobId} {source : List Char}
    (sent : .sent id source ∈ Trace.events moments) (untaken : .taken ∉ Trace.marks moments id) :
    Trace.marks moments id = [] ∧ session.pool.isPending id = true := by
  obtain ⟨source', progress, -, inside, records⟩ :=
    history.recorded.exists_records (history.recorded.lt_of_sent sent)
  obtain ⟨unmarked, rfl⟩ := records.waiting_of_not_taken untaken
  refine ⟨unmarked, Pool.isPending_iff.mpr ?_⟩
  have inPool : (id, .waiting source') ∈ session.pool.progress := by
    refine (List.mem_append.mp inside).resolve_left fun settled => ?_
    obtain ⟨event, -, same⟩ := List.mem_filterMap.mp settled
    cases event <;> cases same
  have inPlace : id ∈ session.pool.places := by
    rw [← Pool.map_fst_progress]
    exact List.mem_map_of_mem (f := Prod.fst) inPool
  have live := (history.placed.places (by simp [free])).mem_iff.mp inPlace
  simpa [Session.live, free, Stage.sent] using live

/-- A worker that has looked at the flag of a job is the only one. -/
theorem History.not_looked_again {first second : List (Moment τ)} {id : JobId} {flagged : Bool}
    (history : History backend (start workers bound) (first ++ second) session)
    (seen : .looked flagged ∈ Trace.marks first id) (again : Bool) :
    .looked again ∉ Trace.marks second id := by
  have used : id.number < session.pool.nextId := by
    refine Nat.lt_of_not_le fun unused => ?_
    have unmarked := history.recorded.fresh id unused
    rw [Trace.marks_append, List.append_eq_nil_iff] at unmarked
    simp [unmarked.1] at seen
  obtain ⟨source, progress, -, -, records⟩ := history.recorded.exists_records used
  rw [Trace.marks_append] at records
  exact records.not_looked_again seen again

/-- A worker sees the flag of a job set if a cancellation of the job was answered with yes. -/
theorem History.flagged_iff {before after : List (Moment τ)} {moment : Moment τ} {id : JobId}
    {flagged : Bool}
    (history : History backend (start workers bound) (before ++ moment :: after) session)
    (looked : moment.mark? = some (id, .looked flagged)) :
    flagged = true ↔ .cancelled id true ∈ Trace.events before := by
  rw [← moment.contains_of_looked looked, List.contains_iff_mem,
    history.split.1.mem_cancelled_iff]

/-- A cancellation in a history is answered according to the session. -/
theorem History.cancelled {before after : List (Moment τ)} {middle : Session τ} {id : JobId}
    {answer : Bool}
    (history : History backend (start workers bound)
      (before ++ ⟨middle, .cancelled id answer⟩ :: after) session) :
    History backend (start workers bound) before middle ∧ middle.stage = .free ∧
      answer = middle.pool.isPending id := by
  obtain ⟨started, next, step, -⟩ := history.split
  obtain ⟨free, answered, -⟩ := step.of_cancelled
  exact ⟨started, free, answered⟩

/-- What a job came to is told by its marks. -/
theorem History.settled (history : History backend (start workers bound) moments session)
    {id : JobId} {result : Except Crash Outcome}
    (ended : (id, .settled result) ∈ Trace.settled (Trace.events moments)) :
    ∃ source, (∀ other, .sent id other ∈ Trace.events moments ↔ other = source) ∧
      ((Trace.marks moments id = [.taken, .looked true] ∧ result = .ok .cancelled) ∨
        (Trace.marks moments id = [.taken, .looked false, .compiled source] ∧
          execute backend source = result)) := by
  obtain ⟨source, sent, records⟩ := history.recorded.records _ (List.mem_append_left _ ended)
  rw [Trace.mem_sent_iff] at sent
  refine ⟨source, fun other => ⟨fun sent' => history.recorded.source_eq sent' sent, ?_⟩,
    records.settled⟩
  rintro rfl
  exact sent

/-- Where nothing is cancelled, a job comes to what its source is executed to. -/
theorem History.settled_of_uncancelled
    (history : History backend (start workers bound) moments session)
    (uncancelled : ∀ id answer, .cancelled id answer ∉ Trace.events moments) {id : JobId}
    {result : Except Crash Outcome}
    (ended : (id, .settled result) ∈ Trace.settled (Trace.events moments)) :
    ∃ source, (∀ other, .sent id other ∈ Trace.events moments ↔ other = source) ∧
      execute backend source = result := by
  obtain ⟨source, unique, ⟨marks, -⟩ | ⟨-, same⟩⟩ := history.settled ended
  · have looked : .looked true ∈ Trace.marks moments id := by simp [marks]
    obtain ⟨before, moment, after, rfl, looks⟩ := Trace.exists_of_mem_marks looked
    have flagged := (history.flagged_iff looks).mp rfl
    apply absurd _ (uncancelled id true)
    rw [Trace.events_append]
    exact List.mem_append_left _ flagged
  · exact ⟨source, unique, same⟩

/-! ## Own results -/

/-- What holds of every history of a pool, whatever its backend does. -/
structure DeliversOwn (backend : Backend) (moments : List (Moment τ)) : Prop where
  /-- The handler of a job is given what its own source is compiled to when a worker saw its flag
  unset, and that it was cancelled when a worker saw its flag set, and then the job was never
  compiled. -/
  handled : ∀ id ticket outcome, .handled id ticket outcome ∈ Trace.events moments →
    .accepted id ticket ∈ Trace.events moments ∧
      ∃ source, (∀ other, .sent id other ∈ Trace.events moments ↔ other = source) ∧
        ((Trace.marks moments id = [.taken, .looked true] ∧ outcome = .cancelled) ∨
          (Trace.marks moments id = [.taken, .looked false, .compiled source] ∧
            execute backend source = .ok outcome))
  /-- The crash that is raised for a job is that of its own source. -/
  raised : ∀ id ticket crash, .raised id ticket crash ∈ Trace.events moments →
    .accepted id ticket ∈ Trace.events moments ∧
      ∃ source, (∀ other, .sent id other ∈ Trace.events moments ↔ other = source) ∧
        Trace.marks moments id = [.taken, .looked false, .compiled source] ∧
        execute backend source = .error crash
  /-- What is dispatched for a cancelled job is the generic error that says so. -/
  generic : ∀ {m : Type → Type} {ε : Type} [Monad m] (factory : ErrorFactory m ε)
    (handler : Except ε Frame → m Unit), Outcome.cancelled.dispatch factory handler =
      (Except.error <$> factory.generic "compilation cancelled") >>= handler
  /-- A worker sees the flag of a job set exactly when a cancellation of that job was answered with
  yes before. -/
  seen : ∀ before after moment id flagged, moments = before ++ moment :: after →
    moment.mark? = some (id, .looked flagged) →
      (flagged = true ↔ .cancelled id true ∈ Trace.events before)
  /-- A cancellation of a job that no worker has taken is answered with yes, and whoever looks at
  the flag sees it set. -/
  inTime : ∀ before after middle id answer source,
    moments = before ++ ⟨middle, .cancelled id answer⟩ :: after →
    .sent id source ∈ Trace.events before → .taken ∉ Trace.marks before id →
      answer = true ∧ ∀ flagged, .looked flagged ∈ Trace.marks moments id → flagged = true
  /-- A cancellation is answered with yes exactly when the job was accepted and has neither been
  handled nor raised. -/
  answered : ∀ before after middle id answer,
    moments = before ++ ⟨middle, .cancelled id answer⟩ :: after →
      (answer = true ↔ (∃ ticket, .accepted id ticket ∈ Trace.events before) ∧
        (∀ ticket outcome, .handled id ticket outcome ∉ Trace.events before) ∧
        ∀ ticket crash, .raised id ticket crash ∉ Trace.events before)
  /-- A cancellation changes nothing as long as no worker looks at the flag of the job: until then
  the same can happen with it and without it, and the workers do the same with every job. -/
  unseen : ∀ before after middle id answer next,
    moments = before ++ ⟨middle, .cancelled id answer⟩ :: after →
    Step backend middle (.cancelled id answer) next →
      GoesOnAs backend id middle next ∧ GoesOnAs backend id next middle
  /-- A cancellation changes nothing at all when it is answered with no, or when a worker has looked
  at the flag: the job is then being compiled, finished, or delivered. -/
  late : ∀ before after middle id answer next,
    moments = before ++ ⟨middle, .cancelled id answer⟩ :: after →
    Step backend middle (.cancelled id answer) next →
    (answer = false ∨ ∃ flagged, .looked flagged ∈ Trace.marks before id) →
      ∀ trace, (∃ last, Run backend next trace last) ↔ ∃ last, Run backend middle trace last
  /-- What a handler is given depends on nothing but the source of its job and on whether a worker
  saw the flag of this job set, whatever else is sent or cancelled. -/
  others : ∀ workers bound (moments' : List (Moment τ)) session',
    History backend (start workers bound) moments' session' →
    ∀ id source ticket ticket' outcome outcome',
      .sent id source ∈ Trace.events moments → .sent id source ∈ Trace.events moments' →
      .handled id ticket outcome ∈ Trace.events moments →
      .handled id ticket' outcome' ∈ Trace.events moments' →
      (.looked true ∈ Trace.marks moments id ↔ .looked true ∈ Trace.marks moments' id) →
        outcome = outcome'

/-- Every handler is given the result of its own job, and a cancellation concerns its own job only,
whatever the owner and the workers do and in whatever order. -/
theorem History.deliversOwn (history : History backend (start workers bound) moments session) :
    DeliversOwn backend moments where
  handled id ticket outcome happened := by
    have handled := Trace.mem_handled_iff.mpr ⟨outcome, happened⟩
    refine ⟨Trace.mem_accepted_iff.mp
      (history.run.subperm_accepted.subset (List.mem_append_left _ handled)), ?_⟩
    obtain ⟨source, own, settled⟩ := history.settled (Trace.mem_settled_of_handled happened)
    refine ⟨source, own, ?_⟩
    simpa using settled
  raised id ticket crash happened := by
    have raised := Trace.mem_raised_iff.mpr ⟨crash, happened⟩
    refine ⟨Trace.mem_accepted_iff.mp
      (history.run.subperm_accepted.subset (List.mem_append_right _ raised)), ?_⟩
    obtain ⟨source, own, settled⟩ := history.settled (Trace.mem_settled_of_raised happened)
    refine ⟨source, own, ?_⟩
    simpa using settled
  generic _ _ := rfl
  seen := by
    rintro before after moment id flagged rfl looked
    exact history.flagged_iff looked
  inTime := by
    rintro before after middle id answer source rfl sent untaken
    obtain ⟨started, free, rfl⟩ := history.cancelled
    obtain ⟨unmarked, pending⟩ := started.isPending_of_not_taken free sent untaken
    refine ⟨pending, fun flagged looked => ?_⟩
    have behind : .looked flagged ∈ Trace.marks after id := by
      rw [List.append_cons, Trace.marks_append, Trace.marks_append, unmarked,
        Trace.marks_of_mark?_eq_none rfl] at looked
      exact looked
    obtain ⟨before', moment, after', rfl, looks⟩ := Trace.exists_of_mem_marks behind
    rw [← List.cons_append, ← List.append_assoc] at history
    rw [history.flagged_iff looks, Trace.events_append]
    exact List.mem_append_right _ (pending ▸ List.mem_cons_self)
  answered := by
    rintro before after middle id answer rfl
    obtain ⟨started, free, rfl⟩ := history.cancelled
    exact started.run.isPending_iff (by simp [free]) id
  unseen := by
    rintro before after middle id answer next rfl step
    exact ⟨step.alikeBut_of_cancelled.goesOnAs, step.alikeBut_of_cancelled.symm.goesOnAs⟩
  late := by
    rintro before after middle id answer next rfl step settled trace
    have alike := step.alikeBut_of_cancelled
    obtain ⟨started, free, answered⟩ := history.cancelled
    rcases settled with rfl | ⟨flagged, looked⟩
    · obtain ⟨-, -, rfl⟩ := step.of_cancelled
      rw [Pool.cancel_eq_self answered.symm, ← free]
    · constructor
      · rintro ⟨last, run⟩
        obtain ⟨moments, rfl, rest⟩ := run.exists_history
        have whole := (started.next step).trans rest
        have unseen := whole.not_looked_again (by
          rw [Trace.marks_append]
          exact List.mem_append_left _ looked)
        obtain ⟨moments', last', rest', events, -⟩ := alike.symm.goesOnAs moments last rest unseen
        exact ⟨last', events ▸ rest'.run⟩
      · rintro ⟨last, run⟩
        obtain ⟨moments, rfl, rest⟩ := run.exists_history
        have unseen := (started.trans rest).not_looked_again looked
        obtain ⟨moments', last', rest', events, -⟩ := alike.goesOnAs moments last rest unseen
        exact ⟨last', events ▸ rest'.run⟩
  others := by
    intro workers' bound' moments' session' history' id source ticket ticket' outcome outcome'
      sent sent' happened happened' same
    obtain ⟨own, unique, settled⟩ := history.settled (Trace.mem_settled_of_handled happened)
    obtain ⟨own', unique', settled'⟩ := history'.settled (Trace.mem_settled_of_handled happened')
    obtain rfl := (unique source).mp sent
    obtain rfl := (unique' source).mp sent'
    rcases settled with ⟨marks, result⟩ | ⟨marks, result⟩ <;>
      rcases settled' with ⟨marks', result'⟩ | ⟨marks', result'⟩ <;>
      simp [marks, marks'] at same
    · exact Except.ok.inj (result.trans result'.symm)
    · exact Except.ok.inj (result.symm.trans result')

end Start

/-- One job is cancelled while it waits. The other one is cancelled while it is compiled and again
when it has been handled. -/
theorem deliversOwn_unsteady :
    ∃ moments session, History unsteady (start 1 none) moments session ∧
      Trace.events moments =
        [.sent ⟨0⟩ [], .accepted ⟨0⟩ 7, .sent ⟨1⟩ ['x'], .accepted ⟨1⟩ 8, .cancelled ⟨1⟩ true,
          .worked 0, .worked 0, .cancelled ⟨0⟩ true, .worked 0, .worked 0, .worked 0, .worked 0,
          .worked 0, .began .runUntilIdle, .handled ⟨0⟩ 7 (.ofFailure .unknown),
          .handled ⟨1⟩ 8 .cancelled, .returned .runUntilIdle 2, .cancelled ⟨0⟩ false] ∧
      DeliversOwn unsteady moments := by
  have present : (0 : Nat) ∉ ([] : List Nat) := List.not_mem_nil
  have run : Run unsteady (start 1 none)
      [.sent ⟨0⟩ [], .accepted ⟨0⟩ 7, .sent ⟨1⟩ ['x'], .accepted ⟨1⟩ 8, .cancelled ⟨1⟩ true,
        .worked 0, .worked 0, .cancelled ⟨0⟩ true, .worked 0, .worked 0, .worked 0, .worked 0,
        .worked 0, .began .runUntilIdle, .handled ⟨0⟩ 7 (.ofFailure .unknown),
        .handled ⟨1⟩ 8 .cancelled, .returned .runUntilIdle 2, .cancelled ⟨0⟩ false]
      ⟨⟨none, [], [.idle], [], [], [⟨0⟩, ⟨1⟩], 2⟩, .free, []⟩ := by
    refine .cons (.send 7 (by decide) rfl) ?_
    refine .cons .accept ?_
    refine .cons (.send 8 (by decide) rfl) ?_
    refine .cons .accept ?_
    refine .cons .cancel ?_
    refine .cons (.work present (Pool.not_mayLeave _ rfl _) rfl) ?_
    refine .cons (.work present (Pool.not_mayLeave _ rfl _) rfl) ?_
    refine .cons .cancel ?_
    refine .cons (.work present (Pool.not_mayLeave _ rfl _) rfl) ?_
    refine .cons (.work present (Pool.not_mayLeave _ rfl _) rfl) ?_
    refine .cons (.work present (Pool.not_mayLeave _ rfl _) rfl) ?_
    refine .cons (.work present (Pool.not_mayLeave _ rfl _) rfl) ?_
    refine .cons (.work present (Pool.not_mayLeave _ rfl _) rfl) ?_
    refine .cons .begin ?_
    refine .cons (.handle rfl rfl) ?_
    refine .cons (.handle rfl rfl) ?_
    refine .cons (.comeBack rfl (.inl rfl)) ?_
    exact .cons .cancel .refl
  obtain ⟨moments, events, history⟩ := run.exists_history
  exact ⟨moments, _, history, events, history.deliversOwn⟩

end Session

end Sequencer
