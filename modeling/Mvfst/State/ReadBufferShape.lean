import Mvfst.State.ReadBufferMerge
import Mathlib.Data.List.Infix
import Mathlib.Data.List.TakeWhile

/-!
The read buffer's invariant. `ReadBufferShape` is what the merge keeps and the read relies on:
entries non-empty, none before the read offset, each ending at least one byte before the next
begins. `Covers` says which offsets the buffer holds and `SlicesOf S` that every entry holds the
bytes of the stream `S` at its offset. The merge of a range keeps the shape, adds exactly the
range to what is covered, and keeps the entries slices of `S`.
-/

namespace Mvfst

/-- Entries are non-empty, start at or after `lo`, and each ends at least one byte before any
later entry starts (so they are sorted by offset). -/
structure ReadBufferShape (lo : Nat) (readBuffer : List StreamBuffer) : Prop where
  nonempty : ∀ entry ∈ readBuffer, 0 < entry.data.length
  above : ∀ entry ∈ readBuffer, lo ≤ entry.offset
  apart : readBuffer.Pairwise (fun a b => a.offset + a.data.length < b.offset)

/-- Offset `position` is held by some entry. -/
def Covers (readBuffer : List StreamBuffer) (position : Nat) : Prop :=
  ∃ entry ∈ readBuffer, entry.offset ≤ position ∧ position < entry.offset + entry.data.length

/-- Every entry holds the bytes of `S` from its offset on. -/
def SlicesOf (S : List UInt8) (readBuffer : List StreamBuffer) : Prop :=
  ∀ entry ∈ readBuffer, entry.data <+: S.drop entry.offset

theorem readBufferShape_nil (lo : Nat) : ReadBufferShape lo [] :=
  ⟨by simp, by simp, List.Pairwise.nil⟩

@[simp] theorem covers_nil (position : Nat) : ¬Covers [] position := by
  simp [Covers]

theorem covers_cons {entry : StreamBuffer} {rest : List StreamBuffer} {position : Nat} :
    Covers (entry :: rest) position ↔
      (entry.offset ≤ position ∧ position < entry.offset + entry.data.length) ∨
        Covers rest position := by
  simp [Covers]

theorem covers_append {front back : List StreamBuffer} {position : Nat} :
    Covers (front ++ back) position ↔ Covers front position ∨ Covers back position := by
  simp only [Covers, List.mem_append]
  constructor
  · rintro ⟨entry, mem | mem, inside⟩
    · exact .inl ⟨entry, mem, inside⟩
    · exact .inr ⟨entry, mem, inside⟩
  · rintro (⟨entry, mem, inside⟩ | ⟨entry, mem, inside⟩)
    · exact ⟨entry, .inl mem, inside⟩
    · exact ⟨entry, .inr mem, inside⟩

/-- Two slices of `S`, the second starting where the first ends, make one. -/
theorem prefix_append_of_drop {S a b : List UInt8} {offset : Nat} (first : a <+: S.drop offset)
    (second : b <+: S.drop (offset + a.length)) : a ++ b <+: S.drop offset := by
  obtain ⟨t, ht⟩ := first
  obtain ⟨u, hu⟩ := second
  refine ⟨u, ?_⟩
  rw [← List.drop_drop, ← ht, List.drop_left] at hu
  rw [← ht, ← hu, List.append_assoc]

/-- The tail of a slice of `S` is the slice from further on. -/
theorem prefix_drop_of_drop {S a : List UInt8} {offset : Nat} (slice : a <+: S.drop offset)
    (k : Nat) : a.drop k <+: S.drop (offset + k) := by
  have dropped := slice.drop k
  rwa [List.drop_drop] at dropped

/-! ### Absorbing the entries a range reaches -/

section Absorb

variable (current : StreamBuffer)

/-- `absorb` yields `current` extended to the right, followed by a suffix of the entries, all
starting after it ends. -/
theorem absorb_spec (rest : List StreamBuffer)
    (apart : rest.Pairwise (fun a b => a.offset + a.data.length < b.offset)) :
    ∃ merged tail, absorb current rest = merged :: tail ∧ merged.offset = current.offset ∧
      current.data.length ≤ merged.data.length ∧ tail <:+ rest ∧
      ∀ entry ∈ tail, merged.offset + merged.data.length < entry.offset := by
  induction rest with
  | nil => exact ⟨current, [], rfl, rfl, Nat.le_refl _, List.suffix_refl _, by simp⟩
  | cons entry rest ih =>
    obtain ⟨later, apart_rest⟩ := List.pairwise_cons.mp apart
    by_cases disjoint : current.offset + current.data.length < entry.offset
    · refine ⟨current, entry :: rest, by rw [absorb, if_pos disjoint], rfl, Nat.le_refl _,
        List.suffix_refl _, ?_⟩
      intro e mem
      rcases List.mem_cons.mp mem with rfl | mem
      · exact disjoint
      · have := later e mem
        omega
    · by_cases within : current.offset + current.data.length ≤ entry.offset + entry.data.length
      · have eq : absorb current (entry :: rest) =
            { current with
              data := current.data ++
                entry.data.drop (current.offset + current.data.length - entry.offset) } :: rest := by
          rw [absorb, if_neg disjoint, if_pos within]
        refine ⟨_, rest, eq, rfl, ?_, List.suffix_cons _ _, ?_⟩
        · simp
        · intro e mem
          have := later e mem
          simp only [List.length_append, List.length_drop]
          omega
      · obtain ⟨merged, tail, eq, same, longer, suffix, after⟩ := ih apart_rest
        exact ⟨merged, tail, by rw [absorb, if_neg disjoint, if_neg within, eq], same, longer,
          suffix.trans (List.suffix_cons _ _), after⟩

/-- What `absorb` covers is what `current` and the entries covered, when no entry starts before
`current`. -/
theorem covers_absorb (rest : List StreamBuffer) (after : ∀ entry ∈ rest, current.offset ≤ entry.offset)
    (position : Nat) :
    Covers (absorb current rest) position ↔
      (current.offset ≤ position ∧ position < current.offset + current.data.length) ∨
        Covers rest position := by
  induction rest with
  | nil => simp [absorb, covers_cons]
  | cons entry rest ih =>
    have starts := after entry List.mem_cons_self
    have ih := ih (fun e mem => after e (List.mem_cons_of_mem _ mem))
    by_cases disjoint : current.offset + current.data.length < entry.offset
    · rw [absorb, if_pos disjoint, covers_cons]
    · by_cases within : current.offset + current.data.length ≤ entry.offset + entry.data.length
      · -- the merged entry spans from `current`'s start to `entry`'s end
        have spans : (current.offset ≤ position ∧ position < current.offset +
              (current.data ++ entry.data.drop
                (current.offset + current.data.length - entry.offset)).length) ↔
            (current.offset ≤ position ∧ position < current.offset + current.data.length) ∨
              (entry.offset ≤ position ∧ position < entry.offset + entry.data.length) := by
          simp only [List.length_append, List.length_drop]
          omega
        rw [absorb, if_neg disjoint, if_pos within, covers_cons, @covers_cons _ rest _, spans,
          or_assoc]
      · -- `entry` lies inside `current`
        have inner : entry.offset ≤ position ∧ position < entry.offset + entry.data.length →
            current.offset ≤ position ∧ position < current.offset + current.data.length := by
          omega
        rw [absorb, if_neg disjoint, if_neg within, ih, @covers_cons _ rest _]
        constructor
        · rintro (held | held)
          · exact .inl held
          · exact .inr (.inr held)
        · rintro (held | held | held)
          · exact .inl held
          · exact .inl (inner held)
          · exact .inr held

/-- Entries that are slices of `S` absorb into a slice of `S`. -/
theorem slicesOf_absorb {S : List UInt8} (rest : List StreamBuffer)
    (slices : SlicesOf S (current :: rest)) : SlicesOf S (absorb current rest) := by
  induction rest with
  | nil => simpa [absorb] using slices
  | cons entry rest ih =>
    have head := slices current List.mem_cons_self
    have this_entry := slices entry (List.mem_cons_of_mem _ List.mem_cons_self)
    have others : ∀ e ∈ rest, e.data <+: S.drop e.offset :=
      fun e mem => slices e (List.mem_cons_of_mem _ (List.mem_cons_of_mem _ mem))
    by_cases disjoint : current.offset + current.data.length < entry.offset
    · rw [absorb, if_pos disjoint]
      exact slices
    · by_cases within : current.offset + current.data.length ≤ entry.offset + entry.data.length
      · rw [absorb, if_neg disjoint, if_pos within]
        intro e mem
        rcases List.mem_cons.mp mem with rfl | mem
        · -- the entry's tail continues `current` exactly where it ends
          have tail := prefix_drop_of_drop this_entry
            (current.offset + current.data.length - entry.offset)
          rw [show entry.offset + (current.offset + current.data.length - entry.offset) =
            current.offset + current.data.length by omega] at tail
          exact prefix_append_of_drop head tail
        · exact others e mem
      · rw [absorb, if_neg disjoint, if_neg within]
        apply ih
        intro e mem
        rcases List.mem_cons.mp mem with rfl | mem
        · exact head
        · exact others e mem

end Absorb

/-! ### Merging from the binary search's position -/

section MergeFrom

variable (buffer : StreamBuffer) (after : List StreamBuffer)

/-- The merged range stands first, non-empty, at the buffer's start or at an entry's, followed by
a suffix of the entries that all start after it ends. -/
theorem mergeFrom_spec (nonempty : 0 < buffer.data.length)
    (entries : ∀ entry ∈ after, 0 < entry.data.length)
    (apart : after.Pairwise (fun a b => a.offset + a.data.length < b.offset)) :
    ∃ head tail, mergeFrom buffer after = head :: tail ∧ 0 < head.data.length ∧
      (head.offset = buffer.offset ∨ ∃ entry ∈ after, head.offset = entry.offset) ∧
      tail <:+ after ∧ ∀ entry ∈ tail, head.offset + head.data.length < entry.offset := by
  cases after with
  | nil => exact ⟨buffer, [], rfl, nonempty, .inl rfl, List.suffix_refl _, by simp⟩
  | cons entry rest =>
    obtain ⟨later, apart_rest⟩ := List.pairwise_cons.mp apart
    by_cases holds : entry.offset ≤ buffer.offset ∧
        buffer.offset + buffer.data.length ≤ entry.offset + entry.data.length
    · exact ⟨entry, rest, by rw [mergeFrom, if_pos holds], entries entry List.mem_cons_self,
        .inr ⟨entry, List.mem_cons_self, rfl⟩, List.suffix_cons _ _, later⟩
    · by_cases starts : buffer.offset ≤ entry.offset
      · obtain ⟨merged, tail, eq, same, longer, suffix, beyond⟩ := absorb_spec buffer _ apart
        exact ⟨merged, tail, by rw [mergeFrom, if_neg holds, if_pos starts, eq], by omega,
          .inl same, suffix, beyond⟩
      · obtain ⟨merged, tail, eq, same, longer, suffix, beyond⟩ := absorb_spec
          { entry with
            data := entry.data ++ buffer.data.drop (entry.offset + entry.data.length - buffer.offset) }
          rest apart_rest
        have positive := entries entry List.mem_cons_self
        refine ⟨merged, tail, by rw [mergeFrom, if_neg holds, if_neg starts, eq], ?_,
          .inr ⟨entry, List.mem_cons_self, same⟩, suffix.trans (List.suffix_cons _ _), beyond⟩
        simp only [List.length_append] at longer
        omega

/-- The merge covers exactly the buffer's range and what the entries covered. -/
theorem covers_mergeFrom (reaching : ∀ entry ∈ after, buffer.offset ≤ entry.offset + entry.data.length)
    (apart : after.Pairwise (fun a b => a.offset + a.data.length < b.offset)) (position : Nat) :
    Covers (mergeFrom buffer after) position ↔
      (buffer.offset ≤ position ∧ position < buffer.offset + buffer.data.length) ∨
        Covers after position := by
  cases after with
  | nil => simp [mergeFrom, covers_cons]
  | cons entry rest =>
    obtain ⟨later, _⟩ := List.pairwise_cons.mp apart
    have reach := reaching entry List.mem_cons_self
    by_cases holds : entry.offset ≤ buffer.offset ∧
        buffer.offset + buffer.data.length ≤ entry.offset + entry.data.length
    · -- the entry already covers the buffer's range
      have inner : buffer.offset ≤ position ∧ position < buffer.offset + buffer.data.length →
          entry.offset ≤ position ∧ position < entry.offset + entry.data.length := by
        omega
      rw [mergeFrom, if_pos holds, covers_cons]
      constructor
      · rintro (held | held)
        · exact .inr (.inl held)
        · exact .inr (.inr held)
      · rintro (held | held | held)
        · exact .inl (inner held)
        · exact .inl held
        · exact .inr held
    · by_cases starts : buffer.offset ≤ entry.offset
      · have above : ∀ e ∈ entry :: rest, buffer.offset ≤ e.offset := by
          intro e mem
          rcases List.mem_cons.mp mem with rfl | mem
          · exact starts
          · have := later e mem
            omega
        rw [mergeFrom, if_neg holds, if_pos starts, covers_absorb buffer _ above]
      · -- the entry extended by the buffer's tail spans both ranges
        have above : ∀ e ∈ rest, entry.offset ≤ e.offset := by
          intro e mem
          have := later e mem
          omega
        have spans : (entry.offset ≤ position ∧ position < entry.offset +
              (entry.data ++ buffer.data.drop
                (entry.offset + entry.data.length - buffer.offset)).length) ↔
            (buffer.offset ≤ position ∧ position < buffer.offset + buffer.data.length) ∨
              (entry.offset ≤ position ∧ position < entry.offset + entry.data.length) := by
          simp only [List.length_append, List.length_drop]
          omega
        rw [mergeFrom, if_neg holds, if_neg starts, covers_absorb
          { entry with
            data := entry.data ++ buffer.data.drop (entry.offset + entry.data.length - buffer.offset) }
          rest above, covers_cons]
        simp only at spans ⊢
        rw [spans, or_assoc]

/-- Merging a slice of `S` into slices of `S` gives slices of `S`. -/
theorem slicesOf_mergeFrom {S : List UInt8} (reaching : ∀ entry ∈ after,
      buffer.offset ≤ entry.offset + entry.data.length)
    (slices : SlicesOf S after) (slice : buffer.data <+: S.drop buffer.offset) :
    SlicesOf S (mergeFrom buffer after) := by
  cases after with
  | nil =>
    intro e mem
    rw [mergeFrom, List.mem_singleton] at mem
    rw [mem]
    exact slice
  | cons entry rest =>
    have reach := reaching entry List.mem_cons_self
    by_cases holds : entry.offset ≤ buffer.offset ∧
        buffer.offset + buffer.data.length ≤ entry.offset + entry.data.length
    · rw [mergeFrom, if_pos holds]
      exact slices
    · by_cases starts : buffer.offset ≤ entry.offset
      · rw [mergeFrom, if_neg holds, if_pos starts]
        apply slicesOf_absorb
        intro e mem
        rcases List.mem_cons.mp mem with rfl | mem
        · exact slice
        · exact slices e mem
      · rw [mergeFrom, if_neg holds, if_neg starts]
        apply slicesOf_absorb
        intro e mem
        rcases List.mem_cons.mp mem with rfl | mem
        · -- the buffer's tail continues the entry exactly where it ends
          have tail := prefix_drop_of_drop slice (entry.offset + entry.data.length - buffer.offset)
          rw [show buffer.offset + (entry.offset + entry.data.length - buffer.offset) =
            entry.offset + entry.data.length by omega] at tail
          exact prefix_append_of_drop (slices entry List.mem_cons_self) tail
        · exact slices e (List.mem_cons_of_mem _ mem)

end MergeFrom

/-! ### The merge into the read buffer -/

/-- From the binary search's position on, every entry ends at or after the buffer's start. -/
theorem dropWhile_reaches (position : Nat) (readBuffer : List StreamBuffer)
    (apart : readBuffer.Pairwise (fun a b => a.offset + a.data.length < b.offset)) :
    ∀ entry ∈ readBuffer.dropWhile
        (fun listValue => decide (listValue.offset + listValue.data.length < position)),
      position ≤ entry.offset + entry.data.length := by
  induction readBuffer with
  | nil => simp
  | cons first rest ih =>
    obtain ⟨later, apart_rest⟩ := List.pairwise_cons.mp apart
    rw [List.dropWhile_cons]
    split
    · exact ih apart_rest
    · rename_i reaches
      simp only [decide_eq_true_eq, Nat.not_lt] at reaches
      intro entry mem
      rcases List.mem_cons.mp mem with rfl | mem
      · exact reaches
      · have := later entry mem
        omega

/-- Merging a non-empty range that starts at or after `lo` into a non-empty read buffer of the
invariant's shape keeps the shape, covers the range in addition, and keeps slices of `S`. -/
theorem mergeIntoReadBuffer_spec {lo : Nat} (readBuffer : List StreamBuffer) (buffer : StreamBuffer)
    (shape : ReadBufferShape lo readBuffer) (occupied : readBuffer ≠ [])
    (fresh : lo ≤ buffer.offset) (nonempty : 0 < buffer.data.length) :
    ReadBufferShape lo (mergeIntoReadBuffer readBuffer buffer) ∧
      (∀ position, Covers (mergeIntoReadBuffer readBuffer buffer) position ↔
        Covers readBuffer position ∨
          (buffer.offset ≤ position ∧ position < buffer.offset + buffer.data.length)) ∧
      (∀ S, SlicesOf S readBuffer → buffer.data <+: S.drop buffer.offset →
        SlicesOf S (mergeIntoReadBuffer readBuffer buffer)) := by
  have below : ∀ entry ∈ readBuffer.takeWhile
      (fun listValue => decide (listValue.offset + listValue.data.length < buffer.offset)),
      entry.offset + entry.data.length < buffer.offset :=
    fun entry mem => by simpa using List.mem_takeWhile_imp mem
  have reaching := dropWhile_reaches buffer.offset readBuffer shape.apart
  set before := readBuffer.takeWhile
    (fun listValue => decide (listValue.offset + listValue.data.length < buffer.offset))
  set after := readBuffer.dropWhile
    (fun listValue => decide (listValue.offset + listValue.data.length < buffer.offset))
  have split : before ++ after = readBuffer := List.takeWhile_append_dropWhile
  have whole := shape.apart
  rw [← split, List.pairwise_append] at whole
  obtain ⟨apart_before, apart_after, across⟩ := whole
  have in_after : ∀ entry ∈ after, entry ∈ readBuffer :=
    fun entry mem => split ▸ List.mem_append_right _ mem
  have in_before : ∀ entry ∈ before, entry ∈ readBuffer :=
    fun entry mem => split ▸ List.mem_append_left _ mem
  have merged := mergeIntoReadBuffer_eq before after buffer (by rwa [split]) below reaching
    apart_after
  rw [split] at merged
  rw [merged]
  obtain ⟨head, tail, eq, positive, starts, suffix, beyond⟩ := mergeFrom_spec buffer after nonempty
    (fun entry mem => shape.nonempty entry (in_after entry mem)) apart_after
  have in_tail : ∀ entry ∈ tail, entry ∈ after := fun entry mem => suffix.mem mem
  refine ⟨⟨?_, ?_, ?_⟩, ?_, ?_⟩
  · -- every entry is non-empty
    intro entry mem
    rcases List.mem_append.mp mem with mem | mem
    · exact shape.nonempty entry (in_before entry mem)
    · rw [eq] at mem
      rcases List.mem_cons.mp mem with rfl | mem
      · exact positive
      · exact shape.nonempty entry (in_after entry (in_tail entry mem))
  · -- no entry starts before `lo`
    intro entry mem
    rcases List.mem_append.mp mem with mem | mem
    · exact shape.above entry (in_before entry mem)
    · rw [eq] at mem
      rcases List.mem_cons.mp mem with rfl | mem
      · rcases starts with same | ⟨old, old_mem, same⟩
        · omega
        · rw [same]
          exact shape.above old (in_after old old_mem)
      · exact shape.above entry (in_after entry (in_tail entry mem))
  · -- the entries before stay apart from the merged range and from the rest
    rw [List.pairwise_append, eq, List.pairwise_cons]
    refine ⟨apart_before, ⟨beyond, apart_after.sublist suffix.sublist⟩, ?_⟩
    intro first first_mem second second_mem
    rcases List.mem_cons.mp second_mem with rfl | second_mem
    · rcases starts with same | ⟨old, old_mem, same⟩
      · have := below first first_mem
        omega
      · rw [same]
        exact across first first_mem old old_mem
    · exact across first first_mem second (in_tail second second_mem)
  · intro position
    rw [covers_append, covers_mergeFrom buffer after reaching apart_after, ← split, covers_append]
    constructor
    · rintro (held | held | held)
      · exact .inl (.inl held)
      · exact .inr held
      · exact .inl (.inr held)
    · rintro ((held | held) | held)
      · exact .inl held
      · exact .inr (.inr held)
      · exact .inr (.inl held)
  · intro S slices slice entry mem
    rcases List.mem_append.mp mem with mem | mem
    · exact slices entry (in_before entry mem)
    · exact slicesOf_mergeFrom buffer after reaching
        (fun entry mem => slices entry (in_after entry mem)) slice entry mem

end Mvfst
