import PingWatch.Proofs.Supervisor.Change

/-!
# The queue, the sleepers and the count of bodies

`Sound` is the invariant that ties the bodies of a run to its queue and its books, whatever the
schedule: the queue holds exactly the bodies that can go on, each once; a body that sleeps has
something that will wake it; and the books count the bodies that have not ended.
-/

namespace PingWatch

namespace Run

/-- The queue holds exactly the bodies that can go on, each once. -/
structure Queued (tasks : List Task) (queue : List Nat) : Prop where
  mem_iff : ∀ id, id ∈ queue ↔ ∃ t, tasks[id]? = some t ∧ t.ready = true
  nodup : queue.Nodup

/-- Every sleeper is woken by its alarm or by a cancellation that is still to come. -/
def Wakeable (cancelled : Bool) (tasks : List Task) : Prop :=
  ∀ t ∈ tasks, ∀ until_ endsOnCancel, t.stage = .asleep until_ endsOnCancel →
    (until_ = none → endsOnCancel = true) ∧ (endsOnCancel = true → cancelled = false)

/-- Queue, sleepers and books agree with the bodies. -/
structure Sound (r : Run) : Prop where
  queued : Queued r.tasks r.queue
  wakeable : Wakeable r.books.cancelled r.tasks
  unfinished : r.books.unfinished + r.endings.length = r.tasks.length

/-! ## The queue -/

/-- A change of a body that leaves it able or unable to go on leaves the queue right. -/
theorem Queued.modify {tasks : List Task} {queue : List Nat} (h : Queued tasks queue) {id : Nat}
    {f : Task → Task} (hf : ∀ t, tasks[id]? = some t → (f t).ready = t.ready) :
    Queued (tasks.modify id f) queue := by
  refine ⟨fun j => (h.mem_iff j).trans ?_, h.nodup⟩
  rw [List.getElem?_modify]
  by_cases hj : id = j
  · subst hj
    constructor
    · rintro ⟨t, ht, hr⟩
      exact ⟨f t, by simp [ht], (hf t ht).trans hr⟩
    · rintro ⟨t', ht', hr⟩
      obtain ⟨t, ht, rfl⟩ : ∃ t, tasks[id]? = some t ∧ f t = t' := by simpa using ht'
      exact ⟨t, ht, (hf t ht).symm.trans hr⟩
  · simp [hj]

/-- A body that stops being able to go on leaves the head of the queue. -/
theorem Queued.retire {tasks : List Task} {queue : List Nat} (h : Queued tasks queue) {id : Nat}
    (head : queue.head? = some id) {f : Task → Task} (hf : ∀ t, (f t).ready = false) :
    Queued (tasks.modify id f) queue.tail := by
  obtain ⟨rest, rfl⟩ := List.head?_eq_some_iff.mp head
  have fresh : id ∉ rest ∧ rest.Nodup := by simpa using h.nodup
  refine ⟨fun j => ?_, fresh.2⟩
  rw [List.tail_cons, List.getElem?_modify]
  by_cases hj : id = j
  · subst hj
    constructor
    · exact fun hm => absurd hm fresh.1
    · rintro ⟨t', ht', hr⟩
      obtain ⟨t, -, rfl⟩ : ∃ t, tasks[id]? = some t ∧ f t = t' := by simpa using ht'
      exact absurd hr (by simp [hf])
  · have := h.mem_iff j
    simpa [hj, Ne.symm hj] using this

/-- A new body enters the queue at its end. -/
theorem Queued.concat {tasks : List Task} {queue : List Nat} (h : Queued tasks queue) {t : Task}
    (ht : t.ready = true) : Queued (tasks ++ [t]) (queue ++ [tasks.length]) := by
  have inside : ∀ id ∈ queue, id < tasks.length := by
    intro id hid
    obtain ⟨t, ht, -⟩ := (h.mem_iff id).mp hid
    exact (List.getElem?_eq_some_iff.mp ht).1
  refine ⟨fun id => ?_, ?_⟩
  · rw [List.mem_append, List.mem_singleton, h.mem_iff id]
    rcases Nat.lt_trichotomy id tasks.length with hlt | rfl | hgt
    · rw [List.getElem?_append_left hlt]
      simp [Nat.ne_of_lt hlt]
    · simp [ht]
    · rw [List.getElem?_append_right (Nat.le_of_lt hgt), List.getElem?_eq_none (Nat.le_of_lt hgt),
        List.getElem?_eq_none (by simp; omega)]
      simp
      omega
  · rw [List.nodup_append]
    refine ⟨h.nodup, by simp, ?_⟩
    intro a ha b hb
    obtain rfl := List.mem_singleton.mp hb
    exact Nat.ne_of_lt (inside a ha)

theorem mem_select {p : Task → Bool} {r : Run} {id : Nat} :
    id ∈ r.select p ↔ ∃ t, r.tasks[id]? = some t ∧ p t = true := by
  unfold select
  simp only [List.mem_map, List.mem_filter]
  constructor
  · rintro ⟨⟨t, i⟩, ⟨hm, hp⟩, rfl⟩
    exact ⟨t, List.mem_zipIdx_iff_getElem?.mp hm, hp⟩
  · rintro ⟨t, ht, hp⟩
    exact ⟨(t, id), ⟨List.mem_zipIdx_iff_getElem?.mpr ht, hp⟩, rfl⟩

theorem nodup_select (p : Task → Bool) (r : Run) : (r.select p).Nodup := by
  have sub : (r.select p).Sublist ((r.tasks.zipIdx).map (·.2)) := List.filter_sublist.map _
  refine sub.nodup ?_
  rw [List.zipIdx_map_snd]
  exact List.nodup_range'

/-- Those that are woken enter the queue at its end. -/
theorem Queued.wake {r : Run} {p : Task → Bool} (h : Queued r.tasks r.queue)
    (hp : ∀ t, p t = true → t.ready = false) : Queued (r.wake p).tasks (r.wake p).queue := by
  refine ⟨fun id => ?_, ?_⟩
  · show id ∈ r.queue ++ r.select p ↔ _
    rw [List.mem_append, h.mem_iff, mem_select]
    show _ ↔ ∃ t, (r.tasks.map _)[id]? = some t ∧ _
    rw [List.getElem?_map]
    cases ht : r.tasks[id]? with
    | none => simp
    | some t =>
      by_cases hpt : p t = true
      · simp [hpt, Task.ready]
      · simp [hpt]
  · show (r.queue ++ r.select p).Nodup
    rw [List.nodup_append]
    refine ⟨h.nodup, nodup_select p r, ?_⟩
    rintro a ha _ hb rfl
    obtain ⟨t, ht, hr⟩ := (h.mem_iff a).mp ha
    obtain ⟨t', ht', hpt⟩ := mem_select.mp hb
    obtain rfl := Option.some.inj (ht.symm.trans ht')
    exact absurd hr (by simp [hp t hpt])

/-! ## The sleepers -/

theorem Wakeable.modify {c : Bool} {tasks : List Task} (h : Wakeable c tasks) {id : Nat}
    {f : Task → Task}
    (hf : ∀ t ∈ tasks, ∀ u b, (f t).stage = .asleep u b → t.stage = .asleep u b ∨
      ((u = none → b = true) ∧ (b = true → c = false))) : Wakeable c (tasks.modify id f) := by
  intro t' ht' u b hs
  obtain ⟨j, hj⟩ := List.mem_iff_getElem?.mp ht'
  rw [List.getElem?_modify] at hj
  obtain ⟨t, ht, rfl⟩ : ∃ t, tasks[j]? = some t ∧ (if id = j then f t else t) = t' := by
    simpa using hj
  have hm : t ∈ tasks := List.mem_of_getElem? ht
  split at hs
  · rcases hf t hm u b hs with hs' | hub
    · exact h t hm u b hs'
    · exact hub
  · exact h t hm u b hs

theorem Wakeable.wake {c : Bool} {r : Run} (h : Wakeable c r.tasks) (p : Task → Bool) :
    Wakeable c (r.wake p).tasks := by
  intro t' ht' u b hs
  obtain ⟨t, ht, rfl⟩ := List.mem_map.mp ht'
  split at hs
  · exact absurd hs (by simp)
  · exact h t ht u b hs

/-- A cancellation wakes all who wait for it. -/
theorem Wakeable.cancel {c : Bool} {r : Run} (h : Wakeable c r.tasks) :
    Wakeable true (r.wake Task.endsOnCancel).tasks := by
  intro t' ht' u b hs
  obtain ⟨t, ht, rfl⟩ := List.mem_map.mp ht'
  split at hs
  · exact absurd hs (by simp)
  · next hno =>
    refine ⟨(h t ht u b hs).1, fun hb => ?_⟩
    simp [Task.endsOnCancel, hs, hb] at hno

theorem ready_eq_false_of_endsOnCancel {t : Task} (h : t.endsOnCancel = true) :
    t.ready = false := by
  unfold Task.endsOnCancel at h
  unfold Task.ready
  split at h <;> simp_all

theorem ready_eq_false_of_alarm {t : Task} {u : Nat} (h : t.alarm?.any (· ≤ u) = true) :
    t.ready = false := by
  unfold Task.alarm? at h
  unfold Task.ready
  split at h <;> simp_all

/-! ## The invariant -/

theorem length_book_tasks (b : Supervisor) (r : Run) : (r.book b).tasks.length = r.tasks.length := by
  unfold book
  dsimp only
  split <;> simp [wake]

/-- New books that count the bodies and undo no cancellation. -/
theorem Sound.book {r : Run} {b : Supervisor} (queued : Queued r.tasks r.queue)
    (wakeable : Wakeable r.books.cancelled r.tasks)
    (unfinished : b.unfinished + r.endings.length = r.tasks.length)
    (keeps : r.books.cancelled = true → b.cancelled = true) : Sound (r.book b) := by
  have count : (r.book b).books.unfinished + (r.book b).endings.length =
      (r.book b).tasks.length := by
    rw [book_books, endings_book, length_book_tasks]
    exact unfinished
  by_cases hb : b.cancelled = r.books.cancelled
  · rw [book_of_cancelled_eq hb] at count ⊢
    refine ⟨queued, ?_, count⟩
    show Wakeable b.cancelled r.tasks
    rw [hb]
    exact wakeable
  · obtain ⟨hr, hb'⟩ : r.books.cancelled = false ∧ b.cancelled = true := by
      cases hc : r.books.cancelled with
      | false => exact ⟨rfl, by simpa [hc] using hb⟩
      | true => exact absurd ((keeps hc).trans hc.symm) hb
    rw [book_of_cancels hb' hr] at count ⊢
    refine ⟨?_, ?_, count⟩
    · exact Queued.wake (r := { r with books := b }) queued
        fun _ => ready_eq_false_of_endsOnCancel
    · show Wakeable b.cancelled _
      rw [hb']
      exact Wakeable.cancel (r := { r with books := b }) wakeable

theorem Sound.unfinished_change {r : Run} (h : Sound r) {id : Nat} {f : Task → Task}
    (hf : ∀ t, r.tasks[id]? = some t → (f t).ending? = t.ending?) :
    (r.change id f).books.unfinished + (r.change id f).endings.length =
      (r.change id f).tasks.length := by
  have same : (r.change id f).endings = r.endings := filterMap_modify_same hf
  have length : (r.change id f).tasks.length = r.tasks.length := List.length_modify ..
  rw [same, length]
  exact h.unfinished

theorem endTurn_book {r : Run} {id : Nat} (h : r.queue.head? = some id) (b : Supervisor) :
    (r.book b).endTurn = r.endTurn.book b := by
  obtain ⟨rest, hq⟩ := List.head?_eq_some_iff.mp h
  unfold Run.book endTurn
  dsimp only
  split
  · simp [wake, select, hq]
  · rfl

/-- The end of a body. -/
theorem Sound.ends {r : Run} (h : Sound r) {id : Nat} (turn : r.AtTurn id)
    (label : Option String) (ending : Ending) : Sound (r.finish id label ending) := by
  have head := turn.1
  have more := (endings_ends turn label ending).length_eq
  unfold Run.finish at more ⊢
  dsimp only at more ⊢
  rw [endTurn_book (r := (r.log label (.ended ending)).change id _) head] at more ⊢
  rw [endings_book] at more
  have fits : r.endings.length + 1 ≤ r.tasks.length := by
    have := List.length_filterMap_le Task.ending? (r.tasks.modify id fun t =>
      { t with stage := .ended ending, awaited := false })
    rw [List.length_modify] at this
    exact Nat.le_trans (Nat.le_of_eq more.symm) this
  refine .book (h.queued.retire head fun _ => rfl) ?_ ?_ ?_
  · exact h.wakeable.modify fun t _ u b hs => absurd hs (by simp)
  · show (r.books.finish ending).unfinished + _ = (r.tasks.modify id _).length
    rw [(Supervisor.finish_counts ending r.books).1, more, List.length_modify]
    have := h.unfinished
    simp only [List.length_cons]
    omega
  · intro hc
    have hc' : r.books.cancelled = true := hc
    show (r.books.finish ending).cancelled = true
    cases ending with
    | well => exact hc'
    | failed f => simp [(Supervisor.finish_failed f _).2, Supervisor.cancelled_failed, hc']

/-- Every elementary change keeps queue, sleepers and books in agreement with the bodies. -/
theorem Sound.change {r r' : Run} (hc : Change r r') (h : Sound r) : Sound r' := by
  cases hc with
  | aside books tasks queue trace now =>
    refine ⟨?_, ?_, ?_⟩
    · rw [tasks, queue]; exact h.queued
    · rw [books, tasks]; exact h.wakeable
    · unfold endings; rw [books, tasks]; exact h.unfinished
  | notes label passing => exact ⟨h.queued, h.wakeable, h.unfinished⟩
  | edits id kept named =>
    refine ⟨h.queued.modify fun t _ => ?_, h.wakeable.modify fun t _ u b hs => ?_, ?_⟩
    · unfold Task.ready; rw [kept]
    · exact .inl ((kept t).symm.trans hs)
    · exact h.unfinished_change fun t _ => Task.ending?_congr (kept t)
  | @begins id t found fresh =>
    refine ⟨h.queued.modify fun t' ht' => ?_, h.wakeable.modify fun t _ u b hs => ?_, ?_⟩
    · obtain rfl := Option.some.inj (found.symm.trans ht')
      simp [Task.ready, fresh]
    · exact absurd hs (by simp)
    · refine h.unfinished_change fun t' ht' => ?_
      obtain rfl := Option.some.inj (found.symm.trans ht')
      simp [Task.ending?, fresh]
  | @sleeps id turn u b wakes ahead =>
    refine ⟨h.queued.retire turn.1 fun _ => rfl, h.wakeable.modify fun t _ u' b' hs => ?_, ?_⟩
    · obtain ⟨rfl, rfl⟩ : u = u' ∧ b = b' := by simpa using hs
      exact .inr ⟨wakes, ahead⟩
    · obtain ⟨-, t, ht, open_, -⟩ := turn
      refine h.unfinished_change fun t' ht' => ?_
      obtain rfl := Option.some.inj (ht.symm.trans ht')
      exact open_.symm
  | ends turn label ending => exact h.ends turn label ending
  | skips idle =>
    have none_ : r.queue.head? = none := by
      cases hq : r.queue.head? with
      | none => rfl
      | some id =>
        obtain ⟨t, ht, hr⟩ := (h.queued.mem_iff id).mp (List.mem_of_head? hq)
        exact absurd hr (by simp [idle id t hq ht])
    have same : r.endTurn = r := by
      unfold endTurn
      rw [List.head?_eq_none_iff.mp none_, List.tail_nil, ← List.head?_eq_none_iff.mp none_]
    rw [same]
    exact h
  | cancels => exact .book h.queued h.wakeable h.unfinished fun _ => rfl
  | admits fresh label attempt names hv =>
    obtain ⟨books, hb, hcb, he⟩ := enlist_eq_of_admitted hv
    obtain ⟨-, -, hu, -⟩ := Supervisor.enlist_admitted hb
    rw [he]
    refine ⟨h.queued.concat (by simp [Task.ready, fresh]), ?_, ?_⟩
    · intro t ht u b hs
      show _ ∧ (_ → books.cancelled = false)
      rw [hcb]
      rcases List.mem_append.mp ht with ht | ht
      · exact h.wakeable t ht u b hs
      · obtain rfl := List.mem_singleton.mp ht
        exact absurd (fresh.symm.trans hs) (by simp)
    · have := h.unfinished
      simp only [endings, log, List.filterMap_append, List.length_append, List.length_singleton]
        at this ⊢
      rw [hu]
      simp [Task.ending?, fresh]
      omega
  | @refuses task n label event o attempt hv =>
    obtain ⟨-, he⟩ := enlist_eq_of_refused hv
    rw [he]
    have sound : Sound (r.book (r.books.failed (.tooManyTasks n))) :=
      .book h.queued h.wakeable (by rw [Supervisor.unfinished_failed]; exact h.unfinished)
        fun hc => by simp [Supervisor.cancelled_failed, hc]
    exact ⟨sound.queued, sound.wakeable, sound.unfinished⟩
  | rings t =>
    refine ⟨h.queued.wake fun _ => ready_eq_false_of_alarm, h.wakeable.wake _, ?_⟩
    rw [endings_wake fun _ => Task.ending?_eq_none_of_alarm]
    simpa [Run.wake] using h.unfinished
  | @favours id hid =>
    refine ⟨⟨fun j => ?_, ?_⟩, h.wakeable, h.unfinished⟩
    · exact (List.perm_cons_erase hid).symm.mem_iff.trans (h.queued.mem_iff j)
    · exact (List.perm_cons_erase hid).nodup_iff.mp h.queued.nodup

end Run

end PingWatch
