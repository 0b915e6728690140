import PingWatch.Proofs.Supervisor.Shutdown

/-!
# Startup

Listeners are started in order, and the next one only when the supervisor has stopped waiting for
the one before.  Who was scheduled is read off the roster (`scheduled`); `InOrder` ties it to the
place where the supervisor stands.  That a body has been ready once cannot be seen in a single
state, for the supervisor may since have gone on; `Freed` therefore speaks of the step at which it
happened, and `freed_of_reaches` is an induction over the run up to now.

* `ordered_startup`: which listeners have been scheduled at any moment, what had to happen before,
  and why the others have not been.
-/

namespace PingWatch

/-- Whether the supervisor stands where the first `k` listeners have been scheduled, with the others
left. -/
def Phase.Fits (listeners : List Listener) (k : Nat) : Phase → Prop
  | starting index left | awaiting _ index left => k = index ∧ left = listeners.drop index
  | steady _ => k = listeners.length
  | draining | returned => True

namespace Run

/-- The supervisor waits for the body of a listener that has to be ready before the next one is
started. -/
def Held (listeners : List Listener) (r : Run) : Prop :=
  ∃ p i l, (∃ index left, r.phase = .awaiting p index left) ∧ r.roster[p]? = some (.listener i) ∧
    listeners[i]? = some l ∧ l.readyRequired = true ∧ r.awaits p = true

/-- With its next move or the one after it the supervisor asks for the admission of listener `k`. -/
def Asks (k : Nat) (r : Run) : Prop :=
  ∃ r₁ r₂ v, (r₁ = r ∨ r.move? = some r₁) ∧ r₁.move? = some r₂ ∧
    r₂.attempts = r.attempts ++ [(.listener k, v)]

/-- Between `r₀` and `r` body `p` ceased to be waited for. -/
def Freed (r₀ : Run) (p : Nat) (r : Run) : Prop :=
  ∃ r₁ r₂, Reaches r₀ r₁ ∧ Step r₁ r₂ ∧ Reaches r₂ r ∧
    r₁.awaits p = true ∧ r₂.awaits p = false ∧ Frees p r₁ r₂

/-! ## Before a run listens -/

theorem listen_awaited (listeners : List Listener) (cancelAt : Option Nat) (r : Run) :
    (r.listen listeners cancelAt).tasks.map (·.awaited) = r.tasks.map (·.awaited) := by
  unfold listen
  dsimp only
  split
  · exact awaited_book _ _
  · rfl

/-- Before a run listens nobody starts anything. -/
theorem Deed.beside {r r' : Run} (d : Deed (false, r) (false, r')) : Beside r r' := by
  cases d with
  | limits limit =>
    rcases setLimit_cases limit r with same | ⟨-, new⟩
    · rw [same]
      exact .of_same rfl rfl rfl
    · rw [new]
      exact .of_same rfl rfl rfl
  | schedules _ caller name steps =>
    exact ((Frame.refl r).enlist rfl { label := some name, work := .script steps } rfl 0
      (some caller) name).beside
  | cancels => exact .of_same (book_phase _ r) (book_trace _ r) (awaited_book _ r)
  | turns h => exact (favour_stepTask_turn _ r).beside
  | passes t => exact passTo_beside t r

/-- A run that has not listened has scheduled no listener and waits for nobody. -/
theorem Lives.unstarted {r : Run} (h : Lives false r) :
    r.scheduled = [] ∧ ∀ p, r.awaits p = false := by
  have all : ∀ state, Relation.ReflTransGen Deed (false, Run.idle) state → state.1 = false →
      state.2.scheduled = [] ∧ ∀ p, state.2.awaits p = false := by
    intro state hs
    induction hs with
    | refl => exact fun _ => ⟨rfl, fun p => by simp [awaits, Run.idle]⟩
    | @tail before after _ d ih =>
      intro unlistened
      obtain ⟨b, r⟩ := before
      obtain ⟨b', r'⟩ := after
      obtain rfl : b' = false := unlistened
      obtain rfl : b = false := by
        cases d <;> rfl
      obtain ⟨scheduled, awaits⟩ := ih rfl
      have beside := d.beside
      refine ⟨beside.scheduled.trans scheduled, fun p => ?_⟩
      by_contra waits
      exact absurd (beside.awaits p (by simpa using waits)) (by simp [awaits p])
  exact all _ h rfl

/-! ## Listeners in order -/

/-- What the supervisor has scheduled, and whom it waits for, follows from where it stands. -/
structure InOrder (listeners : List Listener) (r : Run) : Prop where
  scheduled : ∃ k ≤ listeners.length, r.scheduled = List.range k ∧ r.phase.Fits listeners k
  awaits : ∀ p, r.awaits p = true → r.Active → ∃ index left, r.phase = .awaiting p index left
  /-- Whoever is waited for is a listener that has to be ready. -/
  required : ∀ p index left, r.phase = .awaiting p index left → ∃ i l,
    r.roster[p]? = some (.listener i) ∧ listeners[i]? = some l ∧ l.readyRequired = true

/-- A supervisor that has left off neither schedules nor waits for anybody. -/
theorem InOrder.leave {listeners : List Listener} {r r' : Run} (h : InOrder listeners r)
    (off : ¬r'.Active) (roster : r'.roster = r.roster) : InOrder listeners r' := by
  obtain ⟨k, bound, prefix_, -⟩ := h.scheduled
  have drains : r'.phase = .draining ∨ r'.phase = .returned := by
    unfold Active at off
    tauto
  refine ⟨⟨k, bound, ?_, ?_⟩, fun p _ on => absurd on off, fun p index left hp => ?_⟩
  · unfold Run.scheduled at prefix_ ⊢
    rw [roster, prefix_]
  · rcases drains with hp | hp <;> rw [hp] <;> trivial
  · rcases drains with hp' | hp' <;> exact absurd (hp.symm.trans hp') (by simp)

theorem InOrder.beside {listeners : List Listener} {r r' : Run} (h : InOrder listeners r)
    (b : Beside r r') : InOrder listeners r' := by
  obtain ⟨new, grown, -⟩ := b.roster
  refine ⟨?_, fun p waits on => ?_, fun p index left hp => ?_⟩
  · rw [b.scheduled, b.phase]
    exact h.scheduled
  · unfold Active at on
    rw [b.phase] at on ⊢
    exact h.awaits p (b.awaits p waits) on
  · obtain ⟨i, l, place, found, required⟩ := h.required p index left (b.phase.symm.trans hp)
    refine ⟨i, l, ?_, found, required⟩
    rw [grown]
    exact getElem?_grown place

/-- The listener that is scheduled next. -/
theorem InOrder.next {listeners left : List Listener} {index : Nat} {l : Listener} {r : Run}
    (h : InOrder listeners r) (at_ : r.phase = .starting index (l :: left)) :
    r.scheduled = List.range index ∧ listeners[index]? = some l ∧
      left = listeners.drop (index + 1) := by
  obtain ⟨k, -, prefix_, fits⟩ := h.scheduled
  rw [at_] at fits
  obtain ⟨rfl, rest⟩ := fits
  refine ⟨prefix_, ?_, ?_⟩
  · have head := congrArg (·[0]?) rest
    simpa using head.symm
  · have tail := congrArg List.tail rest
    simpa using tail

/-- Listener `index` has been scheduled between `r` and `r'`, and the others are left. -/
structure Started (index : Nat) (l : Listener) (left : List Listener) (r r' : Run) : Prop where
  roster : r'.roster = r.roster ++ [.listener index]
  tasks : r'.tasks = r.tasks ++ [l.body]
  phase : r'.phase = if l.readyRequired = true then .awaiting r.tasks.length (index + 1) left
    else .starting (index + 1) left

theorem Started.of_admitted {index : Nat} {l : Listener} {r : Run} (left : List Listener)
    (admitted : (r.enlist l.body).1 = .admitted) :
    Started index l left r { (r.enlist l.body).2.log none (.listener index .admitted) with
      phase := if l.readyRequired = true then .awaiting r.tasks.length (index + 1) left
        else .starting (index + 1) left } := by
  have asked := enlist_attempts l.body none (.listener index) (fun _ => rfl) r
  rw [← enlist_verdict l.body, admitted] at asked
  obtain ⟨books, -, -, he⟩ := enlist_eq_of_admitted admitted
  refine ⟨roster_concat asked, ?_, rfl⟩
  rw [he]
  rfl

section Started

variable {index : Nat} {l : Listener} {left : List Listener} {r r' : Run}

theorem Started.scheduled (h : Started index l left r r') :
    r'.scheduled = r.scheduled ++ [index] := by
  unfold Run.scheduled
  rw [h.roster, List.filterMap_append]
  rfl

theorem Started.awaits_old (h : Started index l left r r') {p : Nat} (inside : p < r.tasks.length) :
    r'.awaits p = r.awaits p := by
  unfold awaits
  rw [h.tasks, List.getElem?_append_left inside]

theorem Started.awaits_new (h : Started index l left r r') :
    r'.awaits r.tasks.length = l.readyRequired := by
  unfold awaits
  rw [h.tasks]
  simp [Listener.body]

/-- Nobody is waited for who has not been admitted. -/
theorem inside_of_awaits {p : Nat} (h : r.awaits p = true) : p < r.tasks.length := by
  by_contra outside
  unfold awaits at h
  rw [List.getElem?_eq_none (Nat.le_of_not_lt outside)] at h
  exact absurd h (by simp)

/-- Whoever is waited for after the start is the body of that listener, or was before. -/
theorem Started.awaits_cases (h : Started index l left r r') {p : Nat} (waits : r'.awaits p = true) :
    r.awaits p = true ∨ p = r.tasks.length ∧ l.readyRequired = true := by
  have inside := inside_of_awaits waits
  rw [h.tasks, List.length_append, List.length_singleton] at inside
  rcases Nat.lt_or_ge p r.tasks.length with old | new
  · exact .inl ((h.awaits_old old).symm.trans waits)
  · obtain rfl : p = r.tasks.length := by omega
    exact .inr ⟨rfl, h.awaits_new.symm.trans waits⟩

end Started

/-- A refusal leaves the roster as it is. -/
theorem roster_of_refused {index n : Nat} {l : Listener} {r : Run}
    (refused : (r.enlist l.body).1 = .refused n) :
    ((r.enlist l.body).2.log none (.listener index (.refused n))).roster = r.roster := by
  have asked := enlist_attempts l.body none (.listener index) (fun _ => rfl) r
  rw [← enlist_verdict l.body, refused] at asked
  exact (roster_concat asked).trans (List.append_nil _)

theorem InOrder.started {listeners left : List Listener} {index : Nat} {l : Listener} {r r' : Run}
    (h : InOrder listeners r) (enrolled : Enrolled r) (at_ : r.phase = .starting index (l :: left))
    (s : Started index l left r r') : InOrder listeners r' := by
  obtain ⟨prefix_, found, rest⟩ := h.next at_
  refine ⟨⟨index + 1, (List.getElem?_eq_some_iff.mp found).1, ?_, ?_⟩, fun p waits _ => ?_,
    fun p index' left' hp => ?_⟩
  · rw [s.scheduled, prefix_, List.range_succ]
  · rw [s.phase]
    split <;> exact ⟨rfl, rest⟩
  · rcases s.awaits_cases waits with old | ⟨new, required⟩
    · -- nobody else was waited for, or the supervisor would not have been starting anybody
      obtain ⟨_, _, at_'⟩ := h.awaits p old ⟨by simp [at_], by simp [at_]⟩
      exact absurd (at_.symm.trans at_') (by simp)
    · rw [s.phase, if_pos required, new]
      exact ⟨_, _, rfl⟩
  · rw [s.phase] at hp
    split at hp
    · next required =>
      obtain ⟨rfl, -, -⟩ := Phase.awaiting.inj hp
      refine ⟨index, l, ?_, found, required⟩
      rw [s.roster, ← enrolled.length, List.getElem?_concat_length]
    · exact absurd hp (by simp)

theorem InOrder.move {listeners : List Listener} {r r' : Run} (h : InOrder listeners r)
    (enrolled : Enrolled r) (m : Move r r') : InOrder listeners r' := by
  cases m with
  | leaves | returns => exact h.leave (fun on => by simp [Active] at on) rfl
  | heeds | closes =>
    exact h.leave (fun on => by simp [Active] at on) (roster_congr (book_trace _ r))
  | givesUp at_ uncancelled refused =>
    exact h.leave (fun on => by simp [Active] at on) (roster_of_refused refused)
  | looksOn looks =>
    obtain ⟨k, bound, prefix_, fits⟩ := h.scheduled
    have all : k = listeners.length := by
      rcases looks with ⟨index, at_⟩ | ⟨tick, at_, -⟩
      · rw [at_] at fits
        obtain ⟨rfl, rest⟩ := fits
        exact Nat.le_antisymm bound (List.drop_eq_nil_iff.mp rest.symm)
      · rw [at_] at fits
        exact fits
    refine ⟨⟨k, bound, prefix_, all⟩, fun p waits _ => ?_, fun p index left hp => by simp at hp⟩
    exfalso
    rcases looks with ⟨index, at_⟩ | ⟨tick, at_, -⟩ <;>
      · obtain ⟨_, _, at_'⟩ := h.awaits p waits ⟨by simp [at_], by simp [at_]⟩
        exact absurd (at_.symm.trans at_') (by simp)
  | @goesOn id index left at_ uncancelled ready =>
    obtain ⟨k, bound, prefix_, fits⟩ := h.scheduled
    rw [at_] at fits
    refine ⟨⟨k, bound, prefix_, fits⟩, fun p waits _ => ?_, fun p index left hp => by simp at hp⟩
    obtain ⟨_, _, at_'⟩ := h.awaits p waits ⟨by simp [at_], by simp [at_]⟩
    obtain ⟨rfl, -, -⟩ := Phase.awaiting.inj (at_.symm.trans at_')
    exact absurd (ready.symm.trans waits) (by simp)
  | @starts index l left at_ uncancelled admitted =>
    exact h.started enrolled at_ (Started.of_admitted left admitted)

/-- From the moment it listens a run is in order. -/
theorem InOrder.of_reaches {r₀ r : Run} (prepared : Lives false r₀) (listeners : List Listener)
    (cancelAt : Option Nat) (reached : Reaches (r₀.listen listeners cancelAt) r) :
    InOrder listeners r := by
  have lives : Lives true (r₀.listen listeners cancelAt) :=
    prepared.next (.listens listeners cancelAt r₀)
  induction reached with
  | refl =>
    obtain ⟨scheduled, awaits⟩ := prepared.unstarted
    have phase := listen_phase listeners cancelAt r₀
    refine ⟨⟨0, Nat.zero_le _, ?_, ?_⟩, fun p waits _ => ?_, fun p index left hp => ?_⟩
    · unfold Run.scheduled at scheduled ⊢
      rw [roster_congr (listen_trace listeners cancelAt r₀), scheduled, List.range_zero]
    · rw [phase]
      exact ⟨rfl, rfl⟩
    · rw [awaits_congr (listen_awaited listeners cancelAt r₀), awaits p] at waits
      exact absurd waits (by simp)
    · exact absurd (phase.symm.trans hp) (by simp)
  | next before _ s ih =>
    rcases s.beside_or_move with beside | move
    · exact ih.beside beside
    · exact ih.move (lives.reaches before).enrolled move

/-! ## What had to happen before -/

/-- Who is waited for either stays so or is freed. -/
theorem Step.awaits {r r' : Run} (s : Step r r') {p : Nat} (inside : p < r.tasks.length) :
    r'.awaits p = r.awaits p ∨ r'.awaits p = false ∧ Frees p r r' := by
  cases s with
  | @turn id h =>
    rcases (favour_stepTask_turn id r).awaits p with same | ⟨rfl, freed⟩
    · exact .inl same
    · exact .inr freed
  | signal h => exact .inl rfl
  | pass t => exact .inl (passTo_awaits t r p)
  | move h =>
    refine .inl ?_
    cases move?_move h with
    | leaves | looksOn | goesOn | returns => rfl
    | heeds | closes => exact awaits_congr (awaited_book _ r) p
    | givesUp at_ uncancelled refused =>
      rw [(enlist_eq_of_refused refused).2]
      exact awaits_congr (awaited_book _ r) p
    | @starts index l left at_ uncancelled admitted =>
      exact (Started.of_admitted left admitted : Started index l left r _).awaits_old inside

theorem mem_positions {os : List Origin} {p i : Nat} (h : os[p]? = some (.listener i)) :
    i ∈ os.filterMap Origin.index? :=
  List.mem_filterMap.mpr ⟨.listener i, List.mem_of_getElem? h, rfl⟩

/-- A step that schedules a listener schedules the next one, and only before the cancellation. -/
theorem Step.roster_cases {r r' : Run} (s : Step r r') :
    (∃ new, r'.roster = r.roster ++ new ∧ new.filterMap Origin.index? = []) ∨
      ∃ index l left, r.phase = .starting index (l :: left) ∧ r.books.cancelled = false ∧
        Started index l left r r' := by
  have unchanged : r'.roster = r.roster →
      ∃ new, r'.roster = r.roster ++ new ∧ new.filterMap Origin.index? = [] :=
    fun same => ⟨[], by rw [same, List.append_nil], rfl⟩
  rcases s.beside_or_move with beside | move
  · exact .inl beside.roster
  · cases move with
    | leaves | looksOn | goesOn | returns => exact .inl (unchanged rfl)
    | heeds | closes => exact .inl (unchanged (roster_congr (book_trace _ r)))
    | givesUp at_ uncancelled refused => exact .inl (unchanged (roster_of_refused refused))
    | @starts index l left at_ uncancelled admitted =>
      exact .inr ⟨index, l, left, at_, uncancelled, .of_admitted left admitted⟩

/-- A listener that had to be ready is waited for until it is freed. -/
theorem freed_of_reaches {r₀ r : Run} (prepared : Lives false r₀) {listeners : List Listener}
    {cancelAt : Option Nat} (reached : Reaches (r₀.listen listeners cancelAt) r) {p i : Nat}
    {l : Listener} (place : r.roster[p]? = some (.listener i)) (found : listeners[i]? = some l)
    (required : l.readyRequired = true) :
    r.awaits p = true ∨ Freed (r₀.listen listeners cancelAt) p r := by
  have lives : Lives true (r₀.listen listeners cancelAt) :=
    prepared.next (.listens listeners cancelAt r₀)
  induction reached with
  | refl =>
    have nobody : r₀.roster.filterMap Origin.index? = [] := prepared.unstarted.1
    rw [roster_congr (listen_trace listeners cancelAt r₀)] at place
    exact absurd (nobody ▸ mem_positions place) List.not_mem_nil
  | @next r r' before going s ih =>
    have known : r.roster[p]? = some (.listener i) →
        r'.awaits p = true ∨ Freed (r₀.listen listeners cancelAt) p r' := by
      intro old
      rcases ih old with waits | ⟨r₁, r₂, h₁, s₁, h₂, freed⟩
      · rcases s.awaits (inside_of_awaits waits) with same | ⟨off, why⟩
        · exact .inl (same.trans waits)
        · exact .inr ⟨r, r', before, s, .refl, waits, off, why⟩
      · exact .inr ⟨r₁, r₂, h₁, s₁, h₂.next going s, freed⟩
    rcases s.roster_cases with ⟨new, grown, nobody⟩ | ⟨index, l', left, at_, -, start⟩
    · rw [grown] at place
      rcases getElem?_grown_cases place with old | ⟨-, new_⟩
      · exact known old
      · exact absurd (nobody ▸ mem_positions new_) List.not_mem_nil
    · rw [start.roster] at place
      rcases getElem?_grown_cases place with old | ⟨later, new_⟩
      · exact known old
      · -- this is the listener that has just been scheduled
        obtain ⟨inside, same⟩ := List.getElem?_eq_some_iff.mp new_
        rw [List.length_singleton] at inside
        have here : p = r.tasks.length := by
          rw [← (lives.reaches before).enrolled.length]
          omega
        obtain rfl : index = i := by
          simp only [List.getElem_singleton] at same
          exact Origin.listener.inj same
        obtain ⟨-, found', -⟩ := (InOrder.of_reaches prepared listeners cancelAt before).next at_
        obtain rfl : l' = l := Option.some.inj (found'.symm.trans found)
        rw [here, start.awaits_new]
        exact .inl required

/-! ## Why the others have not been scheduled -/

theorem asks_of_starting {index : Nat} {l : Listener} {left : List Listener} {r : Run}
    (at_ : r.phase = .starting index (l :: left)) (uncancelled : r.books.cancelled = false) :
    ∃ r' v, r.move? = some r' ∧ r'.attempts = r.attempts ++ [(.listener index, v)] := by
  have moves : r.move? = some (r.startNext index (l :: left)) := by
    unfold move?
    rw [at_]
  have asked := enlist_attempts l.body none (.listener index) (fun _ => rfl) r
  refine ⟨_, r.books.enlist.1, moves, ?_⟩
  simp only [startNext, uncancelled, Bool.false_eq_true, if_false]
  split
  · exact asked
  · split <;> exact asked

/-- A supervisor that is neither cancelled nor waiting goes on to the next listener. -/
theorem InOrder.asks {listeners : List Listener} {r : Run} (h : InOrder listeners r)
    (closing : Closing r) {k : Nat} (prefix_ : r.scheduled = List.range k)
    (missing : k < listeners.length) :
    r.books.cancelled = true ∨ Held listeners r ∨ r.signalled = true ∨ Asks k r := by
  by_cases cancelled : r.books.cancelled = true
  · exact .inl cancelled
  have uncancelled : r.books.cancelled = false := by simpa using cancelled
  obtain ⟨k', -, prefix_', fits⟩ := h.scheduled
  obtain rfl : k' = k := by
    simpa using congrArg List.length (prefix_'.symm.trans prefix_)
  cases at_ : r.phase with
  | starting index left =>
    rw [at_] at fits
    obtain ⟨rfl, rest⟩ := fits
    rw [List.drop_eq_getElem_cons missing] at rest
    rw [rest] at at_
    obtain ⟨r', v, moves, asked⟩ := asks_of_starting at_ uncancelled
    exact .inr (.inr (.inr ⟨r, r', v, .inl rfl, moves, asked⟩))
  | awaiting p index left =>
    refine .inr ?_
    by_cases waits : r.awaits p = true
    · obtain ⟨i, l, place, found, required⟩ := h.required p index left at_
      exact .inl ⟨p, i, l, ⟨index, left, at_⟩, place, found, required, waits⟩
    refine .inr ?_
    by_cases signalled : r.signalled = true
    · exact .inl signalled
    rw [at_] at fits
    obtain ⟨rfl, rest⟩ := fits
    rw [List.drop_eq_getElem_cons missing] at rest
    have moves : r.move? = some { r with phase := .starting k' left } := by
      simp [move?, at_, uncancelled, signalled, waits]
    obtain ⟨r', v, moves', asked⟩ :=
      asks_of_starting (r := { r with phase := .starting k' left }) (by rw [rest]) uncancelled
    exact .inr ⟨_, r', v, .inr moves, moves', asked⟩
  | steady tick =>
    rw [at_] at fits
    exact absurd missing (by rw [show k' = listeners.length from fits]; exact Nat.lt_irrefl _)
  | draining | returned =>
    exact .inl (closing.cancelled fun active => by simp [Active, at_] at active)

/-- **Ordered startup.**  Take any run prepared in any way, any listeners and any schedule.  At every
moment the listeners scheduled are the first `k`, each once and in order.  The one that is scheduled
next is the one after them; at that moment the run is not cancelled, nobody has been refused, and
every earlier listener that had to be ready has said so, begun its loop or ended.  As long as not all
have been scheduled, the run is cancelled, as it is by any refusal, or the supervisor waits for one
that has to be ready, or a signal has arrived, or the supervisor asks next for the admission of
listener `k`. -/
theorem ordered_startup {r₀ r : Run} (prepared : Lives false r₀) (listeners : List Listener)
    (cancelAt : Option Nat) (reached : Reaches (r₀.listen listeners cancelAt) r) :
    ∃ k ≤ listeners.length, r.scheduled = List.range k ∧
      (∀ r', Step r r' → r'.scheduled ≠ r.scheduled →
        (∃ l, listeners[k]? = some l ∧ r'.tasks = r.tasks ++ [l.body] ∧
          r'.roster = r.roster ++ [.listener k]) ∧
        r.books.cancelled = false ∧ (∀ e ∈ r.history, e.event.refusal? = none) ∧
        ∀ i < k, ∀ l, listeners[i]? = some l → l.readyRequired = true →
          ∃ p, r.roster[p]? = some (.listener i) ∧ Freed (r₀.listen listeners cancelAt) p r) ∧
      (k < listeners.length →
        r.books.cancelled = true ∨ Held listeners r ∨ r.signalled = true ∨ Asks k r) := by
  have lives : Lives true r := (prepared.next (.listens listeners cancelAt r₀)).reaches reached
  have order := InOrder.of_reaches prepared listeners cancelAt reached
  obtain ⟨k, bound, prefix_, -⟩ := order.scheduled
  refine ⟨k, bound, prefix_, fun r' s more => ?_,
    order.asks (.of_reaches prepared listeners cancelAt reached) prefix_⟩
  rcases s.roster_cases with ⟨new, grown, nobody⟩ | ⟨index, l, left, at_, uncancelled, start⟩
  · refine absurd ?_ more
    unfold Run.scheduled
    rw [grown, List.filterMap_append, nobody, List.append_nil]
  obtain ⟨prefix_', found, -⟩ := order.next at_
  obtain rfl : index = k := by
    simpa using congrArg List.length (prefix_'.symm.trans prefix_)
  refine ⟨⟨l, found, start.tasks, start.roster⟩, uncancelled, fun e he => ?_,
    fun i earlier l' found' required => ?_⟩
  · by_contra refused
    obtain ⟨n, hn⟩ := Option.ne_none_iff_exists'.mp refused
    refine lives.heeded.latched e he ?_ (lives.heeded.latched_eq_none uncancelled)
    rw [(Event.failure?_of_refusal? hn).1]
    simp
  · have listed : i ∈ r.scheduled := by
      rw [prefix_]
      exact List.mem_range.mpr earlier
    obtain ⟨o, member, ho⟩ := List.mem_filterMap.mp listed
    obtain ⟨p, place⟩ := List.mem_iff_getElem?.mp member
    obtain rfl : o = .listener i := by
      cases o <;> simp_all [Origin.index?]
    refine ⟨p, place, ?_⟩
    rcases freed_of_reaches prepared reached place found' required with waits | freed
    · obtain ⟨_, _, at_'⟩ := order.awaits p waits ⟨by simp [at_], by simp [at_]⟩
      exact absurd (at_.symm.trans at_') (by simp)
    · exact freed

/-- A listener that is ready after a while, and one that waits for it. -/
def relay : List Listener :=
  [.script "first" [.sleep 5, .ready, .sleep 10] true, .script "second" [.sleep 20] false]

/-- The relay as the second listener is about to be started. -/
def handed : Run := (idle.listen relay none).watch 5000 7

/-- The second listener is started once the first has been ready, and not before. -/
theorem relay_hands_over :
    handed.scheduled = [0] ∧ ∃ r', Step handed r' ∧ r'.scheduled = [0, 1] ∧
      ∃ p, handed.roster[p]? = some (.listener 0) ∧ Freed (idle.listen relay none) p handed := by
  have reached : Reaches (idle.listen relay none) handed := watch_reaches 5000 7 _
  obtain ⟨k, -, prefix_, next, -⟩ := ordered_startup Lives.idle relay none reached
  have alone : handed.scheduled = [0] := by rfl
  obtain rfl : k = 1 := by
    simpa [alone] using (congrArg List.length prefix_).symm
  obtain ⟨r', moves, both⟩ : ∃ r', handed.move? = some r' ∧ r'.scheduled = [0, 1] := ⟨_, rfl, rfl⟩
  have more : r'.scheduled ≠ handed.scheduled := by
    rw [both, alone]
    decide
  obtain ⟨-, -, -, freed⟩ := next r' (.move moves) more
  exact ⟨alone, r', .move moves, both, freed 0 Nat.zero_lt_one _ rfl rfl⟩

end Run

end PingWatch
