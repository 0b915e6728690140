import PingWatch.Proofs.Supervisor.Turn

/-!
# The moves of the supervisor

`Move` lists what the supervisor itself does when it moves: start the next listener, look for work,
leave the start or the look-out because of a cancellation, a signal or a refusal, and return.
`move?_move` says that this is all, and `Step.beside_or_move` that whatever else happens to a run
schedules no listener and leaves the supervisor where it stands.
-/

namespace PingWatch

/-- The body of a listener, as it is scheduled. -/
def Listener.body (l : Listener) : Task :=
  { label := l.label, work := l.work, awaited := l.readyRequired }

/-- The position of the listener whose admission was asked for. -/
def Origin.index? : Origin → Option Nat
  | listener i => some i
  | subtask _ => none

namespace Run

/-- The positions of the listeners scheduled so far, in the order in which they were. -/
def scheduled (r : Run) : List Nat := r.roster.filterMap Origin.index?

/-- The supervisor is about to look for remaining work: all listeners are started, or a tick of its
steady state has come. -/
def Looks (r : Run) : Prop :=
  (∃ index, r.phase = .starting index []) ∨ ∃ tick, r.phase = .steady tick ∧ tick ≤ r.now

/-- Whether the supervisor has not left off waiting for its bodies to end. -/
def Active (r : Run) : Prop := r.phase ≠ .draining ∧ r.phase ≠ .returned

/-- One move of the supervisor. -/
inductive Move (r : Run) : Run → Prop
  | leaves (active : r.Active) (cancelled : r.books.cancelled = true) :
    Move r { r with phase := .draining }
  | heeds (active : r.Active) (signalled : r.signalled = true) :
    Move r { r.book r.books.cancel with phase := .draining }
  /-- It looks for remaining work and finds none. -/
  | closes (looks : r.Looks) (uncancelled : r.books.cancelled = false)
    (idle : r.books.unfinished = 0) : Move r { r.book r.books.cancel with phase := .draining }
  | looksOn (looks : r.Looks) (uncancelled : r.books.cancelled = false)
    (busy : r.books.unfinished ≠ 0) : Move r { r with phase := .steady (r.now + tickSpacing) }
  | goesOn {id index : Nat} {left : List Listener} (at_ : r.phase = .awaiting id index left)
    (uncancelled : r.books.cancelled = false) (ready : r.awaits id = false) :
    Move r { r with phase := .starting index left }
  | starts {index : Nat} {l : Listener} {left : List Listener}
    (at_ : r.phase = .starting index (l :: left)) (uncancelled : r.books.cancelled = false)
    (admitted : (r.enlist l.body).1 = .admitted) :
    Move r { (r.enlist l.body).2.log none (.listener index .admitted) with
      phase := if l.readyRequired = true then .awaiting r.tasks.length (index + 1) left
        else .starting (index + 1) left }
  | givesUp {index : Nat} {l : Listener} {left : List Listener} {n : Nat}
    (at_ : r.phase = .starting index (l :: left)) (uncancelled : r.books.cancelled = false)
    (refused : (r.enlist l.body).1 = .refused n) :
    Move r { (r.enlist l.body).2.log none (.listener index (.refused n)) with phase := .draining }
  | returns (at_ : r.phase = .draining) (idle : r.books.unfinished = 0) :
    Move r { r with phase := .returned }

theorem startNext_move {index : Nat} {left : List Listener} {r : Run}
    (at_ : r.phase = .starting index left) : Move r (r.startNext index left) := by
  have active : r.Active := ⟨by rw [at_]; simp, by rw [at_]; simp⟩
  cases left with
  | nil =>
    have looks : r.Looks := .inl ⟨index, at_⟩
    simp only [startNext, settleDown]
    split
    · next h => exact .leaves active h
    · next h =>
      have uncancelled : r.books.cancelled = false := by simpa using h
      split
      · next idle => exact .closes looks uncancelled idle
      · next busy => exact .looksOn looks uncancelled busy
  | cons l left =>
    simp only [startNext]
    split
    · next h => exact .leaves active h
    · next h =>
      have uncancelled : r.books.cancelled = false := by simpa using h
      have started := Move.starts at_ uncancelled
      have refused := fun n => Move.givesUp (n := n) at_ uncancelled
      unfold Listener.body at started refused
      split
      · next n hv =>
        rw [hv]
        exact refused n hv
      · next hv =>
        have move := started hv
        rw [hv]
        split
        · next required =>
          rw [if_pos required] at move
          exact move
        · next free =>
          rw [if_neg free] at move
          exact move

/-- Whatever the supervisor does is one of these moves. -/
theorem move?_move {r r' : Run} (h : r.move? = some r') : Move r r' := by
  unfold move? at h
  split at h
  · next index left at_ => exact Option.some.inj h ▸ startNext_move at_
  · next id index left at_ =>
    have active : r.Active := ⟨by rw [at_]; simp, by rw [at_]; simp⟩
    split at h
    · next hc => exact Option.some.inj h ▸ .leaves active hc
    · next hc =>
      split at h
      · next hs => exact Option.some.inj h ▸ .heeds active hs
      · split at h
        · exact absurd h (by simp)
        · next ha => exact Option.some.inj h ▸ .goesOn at_ (by simpa using hc) (by simpa using ha)
  · next tick at_ =>
    have active : r.Active := ⟨by rw [at_]; simp, by rw [at_]; simp⟩
    split at h
    · next hc => exact Option.some.inj h ▸ .leaves active hc
    · next hc =>
      split at h
      · next hs => exact Option.some.inj h ▸ .heeds active hs
      · split at h
        · next due =>
          have looks : r.Looks := .inr ⟨tick, at_, due⟩
          split at h
          · next idle => exact Option.some.inj h ▸ .closes looks (by simpa using hc) idle
          · next busy => exact Option.some.inj h ▸ .looksOn looks (by simpa using hc) busy
        · exact absurd h (by simp)
  · next at_ =>
    split at h
    · next idle => exact Option.some.inj h ▸ .returns at_ idle
    · exact absurd h (by simp)
  · exact absurd h (by simp)

/-! ## What moves show -/

/-- A move asks for one admission at most, that of the listener whose turn it is. -/
theorem Move.attempts {r r' : Run} (h : Move r r') : r'.attempts = r.attempts ∨
    ∃ index l left, r.phase = .starting index (l :: left) ∧
      r'.attempts = r.attempts ++ [(.listener index, r.books.enlist.1)] := by
  cases h with
  | leaves | looksOn | goesOn | returns => exact .inl rfl
  | heeds | closes => exact .inl (attempts_congr (book_trace _ r))
  | @starts index l left at_ uncancelled admitted =>
    have asked := enlist_attempts l.body none (.listener index) (fun _ => rfl) r
    rw [admitted] at asked
    exact .inr ⟨index, l, left, at_, asked⟩
  | @givesUp index l left n at_ uncancelled refused =>
    have asked := enlist_attempts l.body none (.listener index) (fun _ => rfl) r
    rw [refused] at asked
    exact .inr ⟨index, l, left, at_, asked⟩

/-! ## What happens beside the moves -/

/-- The supervisor stays where it is, schedules nobody and waits for nobody else. -/
structure Beside (r r' : Run) : Prop where
  phase : r'.phase = r.phase
  roster : ∃ new, r'.roster = r.roster ++ new ∧ new.filterMap Origin.index? = []
  awaits : ∀ p, r'.awaits p = true → r.awaits p = true

theorem Beside.scheduled {r r' : Run} (h : Beside r r') : r'.scheduled = r.scheduled := by
  obtain ⟨new, grown, nobody⟩ := h.roster
  unfold Run.scheduled
  rw [grown, List.filterMap_append, nobody, List.append_nil]

theorem Beside.of_same {r r' : Run} (phase : r'.phase = r.phase) (trace : r'.trace = r.trace)
    (awaited : r'.tasks.map (·.awaited) = r.tasks.map (·.awaited)) : Beside r r' :=
  ⟨phase, ⟨[], by rw [roster_congr trace, List.append_nil], rfl⟩,
    fun p h => (awaits_congr awaited p).symm.trans h⟩

theorem Turn.beside {id : Nat} {r r' : Run} (h : Turn id r r') : Beside r r' := by
  refine ⟨h.phase, ?_, fun p waits => ?_⟩
  · rcases h.attempts with same | ⟨name, asked⟩
    · exact ⟨[], by rw [roster_of_attempts same, List.append_nil], rfl⟩
    · exact ⟨_, roster_concat asked, by split <;> rfl⟩
  · rcases h.awaits p with same | ⟨-, freed, -⟩
    · exact same.symm.trans waits
    · exact absurd (freed.symm.trans waits) (by simp)

theorem passTo_beside (t : Nat) (r : Run) : Beside r (r.passTo t) :=
  ⟨passTo_phase t r, ⟨[], by rw [roster_congr (passTo_trace t r), List.append_nil], rfl⟩,
    fun p h => (passTo_awaits t r p).symm.trans h⟩

/-- Only a move of the supervisor starts anybody. -/
theorem Step.beside_or_move {r r' : Run} (s : Step r r') : Beside r r' ∨ Move r r' := by
  cases s with
  | turn h => exact .inl (favour_stepTask_turn _ r).beside
  | move h => exact .inr (move?_move h)
  | signal h => exact .inl (.of_same rfl rfl rfl)
  | pass t => exact .inl (passTo_beside t r)

end Run

end PingWatch
