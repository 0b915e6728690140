/-!
# The extremes of a list

The longest and the shortest time of a list, and the greatest and the least float, are found by one
fold that keeps one of two elements.
-/

namespace PingWatch

/-- A fold that keeps one of two elements, and never the lesser one, ends with one of them all that
no other is above. -/
theorem foldl_keep {α : Type} (le : α → α → Prop) {keep : α → α → α} (refl : ∀ a, le a a)
    (trans : ∀ a b c, le a b → le b c → le a c) (one : ∀ a b, keep a b = a ∨ keep a b = b)
    (most : ∀ a b, le a (keep a b) ∧ le b (keep a b)) (a : α) (l : List α) :
    l.foldl keep a ∈ a :: l ∧ ∀ b ∈ a :: l, le b (l.foldl keep a) := by
  -- what is kept of the first two elements goes on as the first of the others
  induction l generalizing a with
  | nil =>
    refine ⟨List.mem_cons_self, fun b hb => ?_⟩
    obtain rfl := List.mem_singleton.mp hb
    exact refl b
  | cons c l ih =>
    obtain ⟨kept, above⟩ := ih (keep a c)
    have top : le (keep a c) (l.foldl keep (keep a c)) := above _ List.mem_cons_self
    rw [List.foldl_cons]
    constructor
    · obtain first | later := List.mem_cons.mp kept
      · rw [first]
        obtain same | same := one a c <;> rw [same] <;> simp
      · exact List.mem_cons_of_mem a (List.mem_cons_of_mem c later)
    · refine List.forall_mem_cons.mpr ⟨trans _ _ _ (most a c).1 top, ?_⟩
      exact List.forall_mem_cons.mpr ⟨trans _ _ _ (most a c).2 top,
        fun b hb => above b (List.mem_cons_of_mem _ hb)⟩

end PingWatch
