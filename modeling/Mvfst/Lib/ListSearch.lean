import Mathlib

/-!
Linear searches over a list, as iterators that step forward from a position run them: the first
position from which a test holds is a `List.findIdx` over the list dropped to that position, and
the positions at which the test holds are read off `List.zipIdx`.
-/

namespace ListSearch

variable {α : Type} {p q : α → Bool}

theorem findIdx_congr {xs : List α} (same : ∀ x ∈ xs, p x = q x) : xs.findIdx p = xs.findIdx q := by
  induction xs with
  | nil => rfl
  | cons x xs ih =>
    have rest := ih fun y member => same y (List.mem_cons_of_mem x member)
    simp only [List.findIdx_cons, same x List.mem_cons_self, rest]

theorem findIdx_append_of_false {xs ys : List α} (skipped : ∀ x ∈ xs, p x = false) :
    (xs ++ ys).findIdx p = xs.length + ys.findIdx p := by
  rw [List.findIdx_append, List.findIdx_eq_length_of_false skipped]
  simp [Nat.add_comm]

theorem length_takeWhile (xs : List α) : (xs.takeWhile p).length = xs.findIdx fun x => !p x := by
  rw [List.takeWhile_eq_take_findIdx_not, List.length_take]
  exact Nat.min_eq_left List.findIdx_le_length

/-- A search that passes `k` elements failing the test continues from the `k`-th. -/
theorem findIdx_eq_add_drop {xs : List α} {k : Nat} (room : k ≤ xs.length)
    (skipped : ∀ x ∈ xs.take k, p x = false) : xs.findIdx p = k + (xs.drop k).findIdx p := by
  conv_lhs => rw [← List.take_append_drop k xs]
  rw [findIdx_append_of_false skipped, List.length_take, Nat.min_eq_left room]

/-- A search for a stronger test stops no earlier. -/
theorem findIdx_take_false {xs : List α} (stronger : ∀ x, p x = true → q x = true) :
    ∀ x ∈ xs.take (xs.findIdx q), p x = false := by
  intro x member
  cases tested : p x
  · rfl
  · have := List.false_of_mem_take_findIdx member
    simp [stronger x tested] at this

/-- The positions from `start` on of the elements of `xs.drop start` that pass the test. -/
def positionsFrom (p : α → Bool) (xs : List α) (start : Nat) : List Nat :=
  (((xs.drop start).zipIdx start).filter fun entry => p entry.1).map Prod.snd

theorem positionsFrom_congr {xs : List α} {start : Nat} (same : ∀ x ∈ xs.drop start, p x = q x) :
    positionsFrom p xs start = positionsFrom q xs start := by
  unfold positionsFrom
  rw [List.filter_congr fun entry member => same entry.1 (List.fst_mem_of_mem_zipIdx member)]

/-- The first position is where the search from `start` stops, and the rest follow it. -/
theorem positionsFrom_eq_cons {xs : List α} {start : Nat} {x : α}
    (found : xs[start + (xs.drop start).findIdx p]? = some x) :
    positionsFrom p xs start =
      (start + (xs.drop start).findIdx p) :: positionsFrom p xs (start + (xs.drop start).findIdx p + 1) := by
  have passes : p x = true := by
    apply List.findIdx_of_getElem?_eq_some
    rw [List.getElem?_drop]
    exact found
  have inside : start + (xs.drop start).findIdx p < xs.length := by
    by_contra outside
    rw [List.getElem?_eq_none (by omega)] at found
    cases found
  have split : xs.drop start = (xs.drop start).take ((xs.drop start).findIdx p) ++
      x :: xs.drop (start + (xs.drop start).findIdx p + 1) := by
    conv_lhs => rw [← List.take_append_drop ((xs.drop start).findIdx p) (xs.drop start)]
    rw [List.drop_drop, List.drop_eq_getElem_cons inside, (List.getElem?_eq_some_iff.mp found).2]
  have skipped : ((((xs.drop start).take ((xs.drop start).findIdx p)).zipIdx start).filter
      fun entry => p entry.1) = [] := by
    rw [List.filter_eq_nil_iff]
    intro entry member
    have := List.false_of_mem_take_findIdx (List.fst_mem_of_mem_zipIdx member)
    simp [this]
  have length : ((xs.drop start).take ((xs.drop start).findIdx p)).length =
      (xs.drop start).findIdx p := by
    rw [List.length_take]
    exact Nat.min_eq_left List.findIdx_le_length
  unfold positionsFrom
  conv_lhs => rw [split]
  rw [List.zipIdx_append, List.filter_append, skipped, length, List.zipIdx_cons]
  simp only [List.filter_cons, passes, if_true, List.nil_append, List.map_cons]

/-- Nothing passes from where the search from `start` runs off the end. -/
theorem positionsFrom_eq_nil {xs : List α} {start : Nat}
    (missing : xs[start + (xs.drop start).findIdx p]? = none) : positionsFrom p xs start = [] := by
  have none : ∀ x ∈ xs.drop start, p x = false := by
    apply List.findIdx_eq_length.mp
    apply Nat.le_antisymm List.findIdx_le_length
    rw [List.getElem?_eq_none_iff] at missing
    simp only [List.length_drop]
    omega
  unfold positionsFrom
  rw [List.filter_eq_nil_iff.mpr fun entry member => by
    simp [none entry.1 (List.fst_mem_of_mem_zipIdx member)]]
  rfl

/-- Each position is listed once. -/
theorem nodup_positionsFrom (xs : List α) (start : Nat) : (positionsFrom p xs start).Nodup := by
  unfold positionsFrom
  have numbered : (((xs.drop start).zipIdx start).map Prod.snd).Nodup := by
    rw [List.zipIdx_map_snd]
    exact List.nodup_range'
  exact numbered.sublist (List.filter_sublist.map Prod.snd)

/-- The elements at the positions that pass, in order, are the elements that pass. -/
theorem positionsFrom_zero_getElem? (xs : List α) :
    (positionsFrom p xs 0).filterMap (fun i => xs[i]?) = xs.filter p := by
  have lookup : ∀ entries : List (α × Nat), (∀ entry ∈ entries, xs[entry.2]? = some entry.1) →
      entries.filterMap ((fun i => xs[i]?) ∘ Prod.snd) = entries.map Prod.fst := by
    intro entries agree
    induction entries with
    | nil => rfl
    | cons entry rest ih =>
      rw [List.filterMap_cons, Function.comp_apply, agree entry List.mem_cons_self,
        ih fun other member => agree other (List.mem_cons_of_mem entry member)]
      rfl
  unfold positionsFrom
  rw [List.drop_zero, List.filterMap_map,
    lookup _ fun entry member => List.mem_zipIdx_iff_getElem?.mp (List.mem_of_mem_filter member)]
  rw [show (fun entry : α × Nat => p entry.1) = p ∘ Prod.fst from rfl, ← List.filter_map,
    List.zipIdx_map_fst]

section Lookup

/-! A map kept as a list of entries, searched with `List.lookup`: the first entry with the key. -/

variable {κ β γ : Type} [BEq κ] [LawfulBEq κ]

theorem lookup_filter_key (keep : κ → Bool) (entries : List (κ × β)) (key : κ) :
    (entries.filter fun entry => keep entry.1).lookup key =
      if keep key then entries.lookup key else none := by
  induction entries with
  | nil => simp
  | cons entry rest ih =>
    obtain ⟨k, v⟩ := entry
    by_cases same : key = k
    · subst same
      by_cases kept : keep key <;> simp [kept, List.lookup, ih]
    · have differ : (key == k) = false := by simpa using same
      by_cases kept : keep k <;> simp [kept, List.lookup, differ, ih]

theorem lookup_map_keeping_key (f : κ × β → κ × γ) (keeps : ∀ entry, (f entry).1 = entry.1)
    (entries : List (κ × β)) (key : κ) :
    (entries.map f).lookup key = (entries.lookup key).map fun value => (f (key, value)).2 := by
  induction entries with
  | nil => simp
  | cons entry rest ih =>
    obtain ⟨k, v⟩ := entry
    have mapped : f (k, v) = (k, (f (k, v)).2) := Prod.ext (keeps (k, v)) rfl
    rw [List.map_cons, mapped]
    by_cases same : key = k
    · subst same
      simp [List.lookup]
    · have differ : (key == k) = false := by simpa using same
      simp [List.lookup, differ, ih]

end Lookup

section Updates

variable {κ β γ : Type} [DecidableEq κ]

/-- Writing the entries of a list with distinct keys into a map one after the other: a key of the
list then reads its entry's value, any other key what the map had. -/
theorem foldl_update_eq_some (key : γ → κ) (value : γ → β) {entries : List γ}
    (nodup : (entries.map key).Nodup) (m : κ → Option β) (k : κ) (b : β) :
    entries.foldl (fun m e => Function.update m (key e) (some (value e))) m k = some b ↔
      (∃ e ∈ entries, key e = k ∧ value e = b) ∨ (k ∉ entries.map key ∧ m k = some b) := by
  induction entries generalizing m with
  | nil => simp
  | cons e rest ih =>
    rw [List.map_cons, List.nodup_cons] at nodup
    rw [List.foldl_cons, ih nodup.2]
    by_cases here : key e = k
    · -- the first entry's key is in no later entry, so its value stays
      subst here
      constructor
      · rintro (⟨e', member, same, rfl⟩ | ⟨_, written⟩)
        · exact absurd (same ▸ List.mem_map_of_mem member) nodup.1
        · rw [Function.update_self, Option.some.injEq] at written
          exact .inl ⟨e, List.mem_cons_self .., rfl, written⟩
      · rintro (⟨e', member, same, rfl⟩ | ⟨absent, _⟩)
        · rcases List.mem_cons.mp member with rfl | later
          · exact .inr ⟨nodup.1, by rw [Function.update_self]⟩
          · exact absurd (same ▸ List.mem_map_of_mem later) nodup.1
        · exact absurd (List.mem_map_of_mem List.mem_cons_self) absent
    · rw [Function.update_of_ne (Ne.symm here), List.map_cons, List.mem_cons, not_or]
      constructor
      · rintro (⟨e', member, same, rfl⟩ | ⟨absent, read⟩)
        · exact .inl ⟨e', List.mem_cons_of_mem _ member, same, rfl⟩
        · exact .inr ⟨⟨Ne.symm here, absent⟩, read⟩
      · rintro (⟨e', member, same, rfl⟩ | ⟨⟨_, absent⟩, read⟩)
        · rcases List.mem_cons.mp member with rfl | later
          · exact absurd same here
          · exact .inl ⟨e', later, same, rfl⟩
        · exact .inr ⟨absent, read⟩

end Updates

end ListSearch
