import Sequencer.Proofs.Pool.Places
import Sequencer.Proofs.Pool.Session

/-!
# The places of jobs in a session

While a pool is not ended, the jobs that are pending or being submitted are those in the queue, in
the hands of workers, and completed. Every step keeps this, so no completion is ever taken of a job
that is not pending, and no worker leaves before it is let go.
-/

namespace Sequencer

variable {τ : Type}

/-! ## What the owner does to a pool -/

namespace Pool

theorem places_send_perm (pool : Pool τ) (source : List Char) :
    (pool.send source).places.Perm (⟨pool.nextId⟩ :: pool.places) := by
  simp only [places, send, List.map_append, List.map_cons, List.map_nil, List.append_assoc]
  exact List.perm_middle

@[simp]
theorem pending_cancel (pool : Pool τ) (id : JobId) :
    (pool.cancel id).2.pending = pool.pending := by
  unfold cancel
  split <;> rfl

@[simp]
theorem places_cancel (pool : Pool τ) (id : JobId) : (pool.cancel id).2.places = pool.places := by
  unfold cancel
  split <;> rfl

@[simp]
theorem nextId_cancel (pool : Pool τ) (id : JobId) : (pool.cancel id).2.nextId = pool.nextId := by
  unfold cancel
  split <;> rfl

@[simp]
theorem workers_cancel (pool : Pool τ) (id : JobId) :
    (pool.cancel id).2.workers = pool.workers := by
  unfold cancel
  split <;> rfl

end Pool

/-! ## Placed sessions -/

namespace Session

variable {backend : Backend}

/-- The live jobs of a session are each in one place, and its workers are there. -/
structure Placed (session : Session τ) : Prop where
  places : session.stage ≠ .ended → session.pool.places.Perm (session.live.map Prod.fst)
  once : session.stage ≠ .ended → session.pool.places.Nodup
  below : ∀ job ∈ session.live, job.1.number < session.pool.nextId
  staffed : session.pool.workers ≠ []
  present : session.stage.isDismissed = false → session.gone = []
  rested : ∀ call count, session.stage = .joining call count → session.pool.pending = []

namespace Placed

theorem start (workers : Nat) (bound : Option Nat) :
    Placed (Session.start workers bound : Session τ) where
  places _ := by
    rw [Session.start, Pool.places_start]
    exact .refl _
  once _ := by simp [Session.start]
  below := by simp [Session.start, Session.live, Pool.start, Stage.sent]
  staffed := by simp [Session.start, Pool.start]
  present _ := rfl
  rested := by simp [Session.start]

variable {pool : Pool τ} {stage : Stage τ} {gone : List Nat}

/-- Workers that have not been let go are there. -/
theorem not_isDeserted (placed : Placed ⟨pool, stage, gone⟩) (kept : stage.isDismissed = false) :
    ¬ pool.IsDeserted gone := by
  intro deserted
  have none_gone : gone = [] := placed.present kept
  have first := deserted 0 (List.length_pos_iff.mpr placed.staffed)
  simp [none_gone] at first

/-- A job in some place is live. -/
theorem mem_live (placed : Placed ⟨pool, stage, gone⟩) (going : stage ≠ .ended) {id : JobId}
    (inside : id ∈ pool.places) : id.number < pool.nextId := by
  rcases List.mem_map.mp ((placed.places going).mem_iff.mp inside) with ⟨job, live, rfl⟩
  exact placed.below job live

/-- The owner turns to something else and leaves the pool alone. -/
theorem restage {next : Stage τ} (placed : Placed ⟨pool, stage, gone⟩) (going : stage ≠ .ended)
    (sent : next.sent = stage.sent) (dismissed : stage.isDismissed = true → next.isDismissed = true)
    (rested : ∀ call count, next = .joining call count → pool.pending = []) :
    Placed ⟨pool, next, gone⟩ where
  places _ := by
    have places := placed.places going
    simpa only [live, sent] using places
  once _ := placed.once going
  below := by
    have below := placed.below
    simpa only [live, sent] using below
  staffed := placed.staffed
  present kept := by
    cases before : stage.isDismissed with
    | false => exact placed.present before
    | true => simp [dismissed before] at kept
  rested := rested

theorem send (placed : Placed ⟨pool, .free, gone⟩) (source : List Char) (ticket : τ) :
    Placed ⟨pool.send source, .registering ⟨pool.nextId⟩ ticket, gone⟩ where
  places _ := by
    have places := placed.places nofun
    apply ((pool.places_send_perm source).trans (places.cons _)).trans
    simp only [live, Stage.sent, Pool.send, List.append_nil, List.map_append, List.map_cons,
      List.map_nil]
    exact (List.perm_append_singleton _ _).symm
  once _ := by
    have new : (⟨pool.nextId⟩ : JobId) ∉ pool.places := by
      intro inside
      exact Nat.lt_irrefl _ (placed.mem_live nofun inside)
    exact (pool.places_send_perm source).nodup_iff.mpr
      (List.nodup_cons.mpr ⟨new, placed.once nofun⟩)
  below := by
    have below := placed.below
    simp only [live, Stage.sent, Pool.send, List.append_nil, List.mem_append,
      List.mem_singleton] at below ⊢
    rintro job (inside | rfl)
    · exact Nat.lt_succ_of_lt (below job inside)
    · exact Nat.lt_succ_self _
  staffed := placed.staffed
  present _ := placed.present rfl
  rested := by simp

theorem accept {id : JobId} {ticket : τ} (placed : Placed ⟨pool, .registering id ticket, gone⟩) :
    Placed ⟨pool.register id ticket, .free, gone⟩ := by
  have same : live ⟨pool.register id ticket, .free, gone⟩ =
      live ⟨pool, .registering id ticket, gone⟩ := by
    simp [live, Stage.sent, Pool.register]
  exact {
    places := by
      intro _
      rw [same]
      exact placed.places nofun
    once := fun _ => placed.once nofun
    below := by
      rw [same]
      exact placed.below
    staffed := placed.staffed
    present := fun _ => placed.present rfl
    rested := nofun }

theorem cancel (placed : Placed ⟨pool, .free, gone⟩) (id : JobId) :
    Placed ⟨(pool.cancel id).2, .free, gone⟩ where
  places _ := by
    have places := placed.places nofun
    simpa [live] using places
  once _ := by
    have once := placed.once nofun
    simpa using once
  below := by
    have below := placed.below
    simpa [live] using below
  staffed := by
    have staffed := placed.staffed
    simpa using staffed
  present _ := placed.present rfl
  rested := by simp

/-- A completion is taken of a job that is pending, and of no other. -/
theorem exists_ticket? {call : Call} {count : Nat} {receipt : Receipt τ}
    (placed : Placed ⟨pool, .taking call count, gone⟩) (taken : pool.takeOne? = some receipt) :
    ∃ ticket, pool.ticket? receipt.id = some ticket := by
  apply Pool.exists_ticket?_of_mem
  have places := placed.places nofun
  have inside : receipt.id ∈ pool.places :=
    (Pool.places_perm_of_takeOne? taken).mem_iff.mpr (List.mem_cons_self ..)
  simpa [live, Stage.sent] using places.mem_iff.mp inside

/-- There is something to hand out for every completion that is taken. -/
theorem answer_ne_none {call : Call} {count : Nat} {receipt : Receipt τ}
    (placed : Placed ⟨pool, .taking call count, gone⟩) (taken : pool.takeOne? = some receipt) :
    receipt.answer ≠ .ok none := by
  intro answer
  obtain ⟨ticket, known⟩ := placed.exists_ticket? taken
  rw [Pool.ticket?_of_no_answer taken answer] at known
  cases known

/-- A completion that is taken takes its job out of the pending ones. -/
theorem pending_perm {call : Call} {count : Nat} {receipt : Receipt τ} {ticket : τ}
    (placed : Placed ⟨pool, .taking call count, gone⟩) (taken : pool.takeOne? = some receipt)
    (known : pool.ticket? receipt.id = some ticket) :
    pool.pending.Perm ((receipt.id, ticket) :: receipt.pool.pending) := by
  have places := placed.places nofun
  have once := places.nodup_iff.mp (placed.once nofun)
  simp only [live, Stage.sent, List.append_nil] at once
  rw [Pool.pending_of_takeOne? taken]
  exact Pool.perm_cons_release once (Pool.mem_pending_of_ticket? known)

theorem take {call : Call} {count : Nat} {receipt : Receipt τ}
    (placed : Placed ⟨pool, .taking call count, gone⟩) (taken : pool.takeOne? = some receipt) :
    Placed ⟨receipt.pool, .taking call count, gone⟩ := by
  obtain ⟨ticket, known⟩ := placed.exists_ticket? taken
  have pending := placed.pending_perm taken known
  have before := Pool.places_perm_of_takeOne? taken
  exact {
    places := by
      intro _
      have places := before.symm.trans ((placed.places nofun).trans
        ((pending.append_right _).map Prod.fst))
      exact places.cons_inv
    once := fun _ => (List.nodup_cons.mp (before.nodup_iff.mp (placed.once nofun))).2
    below := by
      intro job live
      rw [Pool.nextId_of_takeOne? taken]
      apply placed.below job
      exact (pending.append_right _).mem_iff.mpr (List.mem_cons_of_mem _ live)
    staffed := by
      rw [Pool.workers_of_takeOne? taken]
      exact placed.staffed
    present := fun _ => placed.present rfl
    rested := nofun }

theorem work {next : Pool τ} {index : Nat} (placed : Placed ⟨pool, stage, gone⟩)
    (works : pool.Works backend index next) : Placed ⟨next, stage, gone⟩ where
  places going := by
    have places := placed.places going
    rw [live, works.pending_eq]
    exact works.places_perm.trans places
  once going := works.places_perm.nodup_iff.mpr (placed.once going)
  below := by
    rw [live, works.pending_eq, works.nextId_eq]
    exact placed.below
  staffed := by
    rw [← List.length_pos_iff, works.length_workers_eq, List.length_pos_iff]
    exact placed.staffed
  present := placed.present
  rested call count stopped := works.pending_eq.trans (placed.rested call count stopped)

/-- Workers leave only when they have been let go. -/
theorem leave {index : Nat} (placed : Placed ⟨pool, stage, gone⟩)
    (released : pool.MayLeave stage index) : Placed ⟨pool, stage, index :: gone⟩ where
  places := placed.places
  once := placed.once
  below := placed.below
  staffed := placed.staffed
  present kept := by
    rcases released with ⟨-, -, dismissed⟩ | ⟨-, rfl⟩
    · exact absurd dismissed (by simp [kept])
    · cases kept
  rested := placed.rested

/-- Giving up the pending jobs ends the pool. -/
theorem giveUp (placed : Placed ⟨pool, stage, gone⟩) : Placed ⟨pool.giveUp, .ended, gone⟩ where
  places := by simp
  once := by simp
  below := by simp [live, Pool.giveUp, Stage.sent]
  staffed := placed.staffed
  present := nofun
  rested := nofun

end Placed

/-! ## Steps and runs -/

/-- Where the owner is when a call was broken off, nothing is being submitted or joined. -/
theorem Placed.breakOff {pool : Pool τ} {call : Call} {count : Nat} {gone : List Nat}
    (placed : Placed ⟨pool, .taking call count, gone⟩) :
    Placed ⟨pool, .brokenOff call, gone⟩ := by
  unfold Stage.brokenOff
  split
  · exact placed.restage nofun rfl nofun nofun
  · exact placed.restage nofun rfl nofun nofun

/-- Every step keeps the places of the jobs. -/
theorem Step.placed {first last : Session τ} {event : Event τ}
    (step : Step backend first event last) (placed : Placed first) : Placed last := by
  cases step with
  | refuse | refuseDeserted => exact placed
  | send => exact placed.send _ _
  | accept => exact placed.accept
  | cancel => exact placed.cancel _
  | begin => exact placed.restage nofun rfl nofun nofun
  | handle wants taken => exact (placed.take taken).restage nofun rfl nofun nofun
  | handleBreaking wants taken => exact (placed.take taken).breakOff
  | skip wants taken => exact (placed.take taken).restage nofun rfl nofun nofun
  | raise wants taken known => exact (placed.take taken).breakOff
  | desert wants left silent empty => exact absurd empty (placed.not_isDeserted rfl)
  | comeBack notLast done => exact placed.restage nofun rfl nofun nofun
  | dismiss last done => exact placed.restage nofun rfl nofun fun _ _ _ => done
  | finish empty => exact placed.restage nofun rfl (fun _ => rfl) nofun
  | abandon unwound => exact placed.giveUp
  | work present heard stepped => exact placed.work (Pool.advance?_eq_some_iff.mp stepped)
  | leave present released => exact placed.leave released

theorem Run.placed {first last : Session τ} {trace : List (Event τ)}
    (run : Run backend first trace last) (placed : Placed first) : Placed last := by
  induction run with
  | refl => exact placed
  | next earlier step inductionHypothesis => exact step.placed inductionHypothesis

/-! ## What never happens -/

/-- From a placed session, no completion is taken of a job that is not pending. -/
theorem Step.not_unknown {first last : Session τ} {id : JobId}
    (step : Step backend first (.unknown id) last) (placed : Placed first) : False := by
  cases step with
  | skip wants taken => exact placed.answer_ne_none taken rfl

/-- From a placed session, no pending job is given up for want of workers. -/
theorem Step.not_deserted {first last : Session τ} {jobs : List (JobId × τ)}
    (step : Step backend first (.deserted jobs) last) (placed : Placed first) : False := by
  cases step with
  | desert wants left silent empty => exact placed.not_isDeserted rfl empty

/-- From a placed session, a submission is refused only because the queue is full. -/
theorem Step.not_refused_shutDown {first last : Session τ} {ticket : τ}
    (step : Step backend first (.refused ticket .shutDown) last) (placed : Placed first) :
    False := by
  cases step with
  | refuse source staffed refused =>
      unfold Pool.submit at refused
      split at refused <;> simp at refused
  | refuseDeserted empty => exact placed.not_isDeserted rfl empty

end Session

end Sequencer
