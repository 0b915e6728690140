import Mathlib.Data.List.Induction
import Mathlib.Data.List.Nodup

/-!
# Lists with one entry for each key

`upsert` replaces the entry of a key, or adds one at the end.  A list made by upserts alone has the
keys in the order in which they came first (`keys_upserted`), each once (`nodup_upserted`), and of
each key the entry that came last (`mem_upserted_iff`).
-/

namespace PingWatch

theorem eraseDups_concat {κ : Type} [BEq κ] [LawfulBEq κ] (ks : List κ) (k : κ) :
    (ks ++ [k]).eraseDups = if k ∈ ks then ks.eraseDups else ks.eraseDups ++ [k] := by
  rw [List.eraseDups_append]
  by_cases there : k ∈ ks
  · have none_new : [k].removeAll ks = [] := by simp [List.removeAll, there]
    rw [if_pos there, none_new, List.eraseDups_nil, List.append_nil]
  · have new : [k].removeAll ks = [k] := by simp [List.removeAll, there]
    rw [if_neg there, new]
    rfl

section Upsert

variable {α κ : Type} [DecidableEq κ] (key : α → κ)

/-- The list with the entry of a key replaced, or with a new entry behind the others. -/
def upsert (x : α) : List α → List α
  | [] => [x]
  | y :: rest => if key y = key x then x :: rest else y :: upsert x rest

/-- Entries put into an empty list one after the other. -/
def upserted (xs : List α) : List α := xs.foldl (fun l x => upsert key x l) []

variable {key}

theorem upserted_concat (xs : List α) (x : α) :
    upserted key (xs ++ [x]) = upsert key x (upserted key xs) := by
  unfold upserted
  rw [List.foldl_append]
  rfl

/-- Of two entries of one key put one after the other only the second is left. -/
theorem upsert_upsert {x z : α} (same : key x = key z) (l : List α) :
    upsert key z (upsert key x l) = upsert key z l := by
  induction l with
  | nil => simp [upsert, same]
  | cons y rest ih =>
    by_cases here : key y = key z
    · simp [upsert, same, here]
    · simp [upsert, same, here, ih]

/-- So it is when an entry of another key is put in between. -/
theorem upsert_upsert_upsert {x y z : α} (same : key x = key z) (other : key y ≠ key x)
    (l : List α) :
    upsert key z (upsert key y (upsert key x l)) = upsert key y (upsert key z l) := by
  have other' : key z ≠ key y := fun e => other (same.trans e).symm
  induction l with
  | nil => simp [upsert, same, other']
  | cons w rest ih =>
    by_cases here : key w = key z
    · simp [upsert, same, here, other']
    · by_cases there : key w = key y
      · simp [upsert, same, there, other'.symm, upsert_upsert same]
      · simp [upsert, same, here, there, ih]

theorem keys_upsert (x : α) (l : List α) :
    (upsert key x l).map key =
      if key x ∈ l.map key then l.map key else l.map key ++ [key x] := by
  induction l with
  | nil => simp [upsert]
  | cons y rest ih =>
    unfold upsert
    by_cases same : key y = key x
    · simp [same]
    · have other : key x ≠ key y := Ne.symm same
      rw [if_neg same, List.map_cons, ih]
      by_cases there : key x ∈ rest.map key
      · simp [there]
      · simp [there, other]

theorem mem_upsert {x z : α} {l : List α} (apart : (l.map key).Nodup) :
    z ∈ upsert key x l ↔ z = x ∨ (z ∈ l ∧ key z ≠ key x) := by
  induction l with
  | nil => simp [upsert]
  | cons y rest ih =>
    rw [List.map_cons, List.nodup_cons] at apart
    unfold upsert
    by_cases same : key y = key x
    · have others : ∀ z ∈ rest, key z ≠ key x := by
        intro z hz again
        exact apart.1 (same.trans again.symm ▸ List.mem_map_of_mem hz)
      rw [if_pos same, List.mem_cons, List.mem_cons]
      constructor
      · rintro (rfl | hz)
        · exact .inl rfl
        · exact .inr ⟨.inr hz, others z hz⟩
      · rintro (rfl | ⟨rfl | hz, other⟩)
        · exact .inl rfl
        · exact absurd same other
        · exact .inr hz
    · rw [if_neg same, List.mem_cons, List.mem_cons, ih apart.2]
      constructor
      · rintro (rfl | rfl | ⟨hz, other⟩)
        · exact .inr ⟨.inl rfl, same⟩
        · exact .inl rfl
        · exact .inr ⟨.inr hz, other⟩
      · rintro (rfl | ⟨rfl | hz, other⟩)
        · exact .inr (.inl rfl)
        · exact .inl rfl
        · exact .inr (.inr ⟨hz, other⟩)

/-- The keys stand in the order in which they came first. -/
theorem keys_upserted [BEq κ] [LawfulBEq κ] (xs : List α) :
    (upserted key xs).map key = (xs.map key).eraseDups := by
  induction xs using List.reverseRecOn with
  | nil => rfl
  | append_singleton xs x ih =>
    rw [upserted_concat, keys_upsert, List.map_append, List.map_singleton, eraseDups_concat]
    simp only [ih, List.mem_eraseDups]

theorem nodup_upserted (xs : List α) : ((upserted key xs).map key).Nodup := by
  induction xs using List.reverseRecOn with
  | nil => exact List.nodup_nil
  | append_singleton xs x ih =>
    rw [upserted_concat, keys_upsert]
    by_cases there : key x ∈ (upserted key xs).map key
    · rw [if_pos there]
      exact ih
    · rw [if_neg there]
      refine List.nodup_append.mpr ⟨ih, List.nodup_singleton _, ?_⟩
      intro k hk k' hk' same
      exact there (List.mem_singleton.mp hk' ▸ same ▸ hk)

/-- An entry is in the list if and only if none of its key came later. -/
theorem mem_upserted_iff (xs : List α) (z : α) :
    z ∈ upserted key xs ↔ xs.findRev? (fun x => key x = key z) = some z := by
  induction xs using List.reverseRecOn with
  | nil => simp [upserted]
  | append_singleton xs x ih =>
    rw [upserted_concat, mem_upsert (nodup_upserted xs), ih]
    simp only [List.findRev?_eq_find?_reverse, List.reverse_append, List.reverse_singleton,
      List.singleton_append, List.find?_cons]
    by_cases same : key x = key z
    · simp [same, eq_comm]
    · have other : z ≠ x := fun e => same (congrArg key e).symm
      simp [same, other, Ne.symm same]

/-- What was made of `w` is found in the list if and only if it was made of the last that has its
key.  An entry is known by its key and its value. -/
theorem mem_upserted_map_iff {β γ : Type} {entry : γ → α} {value : α → β}
    (ext : ∀ x z, key x = key z → value x = value z → x = z) (ws : List γ) (z : α) :
    z ∈ upserted key (ws.map entry) ↔
      (ws.findRev? fun w => key (entry w) = key z).map (fun w => value (entry w)) =
        some (value z) := by
  have found : (ws.map entry).findRev? (fun x => key x = key z) =
      (ws.findRev? fun w => key (entry w) = key z).map entry := by
    simp only [List.findRev?_eq_find?_reverse, ← List.map_reverse, List.find?_map]
    rfl
  rw [mem_upserted_iff, found]
  cases last : ws.findRev? (fun w => key (entry w) = key z) with
  | none => simp
  | some w =>
    rw [List.findRev?_eq_find?_reverse] at last
    have same : key (entry w) = key z := by simpa using List.find?_some last
    rw [Option.map_some, Option.map_some, Option.some_inj, Option.some_inj]
    exact ⟨congrArg value, ext _ _ same⟩

end Upsert

end PingWatch
