import Mvfst.State.QuicStreamFunctions

/-!
What the merge loop of `appendDataToReadBufferCommon` computes, stated over lists. `absorb`
extends a range over the entries it reaches, and `mergeFrom` starts it at the entry the binary
search finds. `mergeIntoReadBuffer_eq` shows that the indexed loop computes exactly
`prefix ++ mergeFrom buffer suffix` on a read buffer whose entries are ordered and apart.
-/

namespace Mvfst

/-- Extends `current` over the entries it completely covers, up to the first one it does not
reach (kept) or only reaches into (whose tail is appended). -/
def absorb (current : StreamBuffer) : List StreamBuffer → List StreamBuffer
  | [] => [current]
  | entry :: rest =>
    if current.offset + current.data.length < entry.offset then current :: entry :: rest
    else if current.offset + current.data.length ≤ entry.offset + entry.data.length then
      { current with data := current.data ++
          entry.data.drop (current.offset + current.data.length - entry.offset) } :: rest
    else absorb current rest

/-- The merge of `buffer` into the entries from the binary search's position on: nothing when an
entry already holds it, otherwise the buffer (or the entry it extends to the right) absorbs what
follows. -/
def mergeFrom (buffer : StreamBuffer) : List StreamBuffer → List StreamBuffer
  | [] => [buffer]
  | entry :: rest =>
    if entry.offset ≤ buffer.offset ∧
        buffer.offset + buffer.data.length ≤ entry.offset + entry.data.length then entry :: rest
    else if buffer.offset ≤ entry.offset then absorb buffer (entry :: rest)
    else
      absorb { entry with
        data := entry.data ++ buffer.data.drop (entry.offset + entry.data.length - buffer.offset) }
        rest

/-! ### One iteration -/

section Step

variable {s : MergeState} {it : Nat} {entry current : StreamBuffer}

theorem mergeStep_subset (at_it : s.readBuffer[it]? = some entry) (hcur : s.currentValue = current)
    (starts : entry.offset ≤ current.offset)
    (ends : current.offset + current.data.length ≤ entry.offset + entry.data.length) :
    mergeStep s it = { s with done := true } := by
  unfold mergeStep
  simp only [at_it, hcur]
  by_cases exact : current.offset = entry.offset ∧
      current.offset + current.data.length = entry.offset + entry.data.length
  · rw [if_pos exact]
  · rw [if_neg exact, if_pos ⟨starts, ends⟩]

theorem mergeStep_left_disjoint (at_it : s.readBuffer[it]? = some entry)
    (hcur : s.currentValue = current) (before : current.offset + current.data.length < entry.offset) :
    mergeStep s it =
      if s.startOverlap.isNone then
        { s with startOverlap := some it, endOverlap := some it, done := true }
      else { s with done := true } := by
  unfold mergeStep
  simp only [at_it, hcur]
  rw [if_neg (by omega), if_neg (by omega), if_neg (by omega), if_pos (by omega)]

theorem mergeStep_left_overlap (at_it : s.readBuffer[it]? = some entry)
    (hcur : s.currentValue = current) (other : s.current ≠ .entry it)
    (starts : current.offset < entry.offset)
    (reaches : entry.offset ≤ current.offset + current.data.length)
    (ends : current.offset + current.data.length ≤ entry.offset + entry.data.length) :
    mergeStep s it =
      { (s.setEntry it { entry with data := [] }).setCurrent
          { current with data := current.data ++
              entry.data.drop (current.offset + current.data.length - entry.offset) } with
        startOverlap := s.startOverlap.or (some it), endOverlap := some (it + 1), done := true } := by
  unfold mergeStep
  simp only [at_it, hcur]
  rw [if_neg (by omega), if_neg (by omega), if_pos (by omega)]
  have kept : ∀ value, (s.setEntry it value).currentValue = current := fun value => by
    rw [MergeState.currentValue_setEntry _ _ other, hcur]
  by_cases moved : 0 < (entry.data.drop (current.offset + current.data.length - entry.offset)).length
  · rw [if_pos moved]
    simp only [MergeState.setEntry_eq, List.set_set, MergeState.setCurrent_startOverlap] at kept ⊢
    rw [kept]
  · -- nothing is left of the entry, so `current` keeps its bytes
    rw [if_neg moved]
    have empty : entry.data.drop (current.offset + current.data.length - entry.offset) = [] :=
      List.eq_nil_of_length_eq_zero (by omega)
    have unchanged : { current with data := current.data ++ [] } =
        (s.setEntry it { entry with data := [] }).currentValue := by
      rw [kept, List.append_nil]
    rw [empty, unchanged, MergeState.setCurrent_currentValue]
    rfl

theorem mergeStep_complete (at_it : s.readBuffer[it]? = some entry)
    (hcur : s.currentValue = current) (starts : current.offset ≤ entry.offset)
    (beyond : entry.offset + entry.data.length < current.offset + current.data.length) :
    mergeStep s it =
      { s with startOverlap := s.startOverlap.or (some it), endOverlap := some (it + 1) } := by
  unfold mergeStep
  simp only [at_it, hcur]
  rw [if_neg (by omega), if_neg (by omega), if_neg (by omega), if_neg (by omega), if_pos (by omega)]

theorem mergeStep_right_overlap (at_it : s.readBuffer[it]? = some entry)
    (hcur : s.currentValue = current) (starts : entry.offset < current.offset)
    (reaches : current.offset ≤ entry.offset + entry.data.length)
    (beyond : entry.offset + entry.data.length < current.offset + current.data.length) :
    mergeStep s it =
      { (s.setCurrent { current with data := [] }).setEntry it
          { entry with data := entry.data ++
              current.data.drop (entry.offset + entry.data.length - current.offset) } with
        current := .entry it, currentAlreadyInserted := true,
        startOverlap := some (it + 1), endOverlap := some (it + 1) } := by
  unfold mergeStep
  simp only [at_it, hcur]
  rw [if_neg (by omega), if_neg (by omega), if_neg (by omega), if_neg (by omega),
    if_neg (by omega), if_pos (by omega)]

/-- Before the first iteration no overlap range is open; when the buffer starts at or before the
entry and is not inside it, the iteration does the same as with the range opened at `it`. -/
theorem mergeStep_open (at_it : s.readBuffer[it]? = some entry) (hcur : s.currentValue = current)
    (incoming : s.current = .incoming) (unstarted : s.startOverlap = none)
    (starts : current.offset ≤ entry.offset)
    (outside : ¬(entry.offset ≤ current.offset ∧
      current.offset + current.data.length ≤ entry.offset + entry.data.length)) :
    mergeStep s it = mergeStep { s with startOverlap := some it, endOverlap := some it } it := by
  have at_it' : ({ s with startOverlap := some it, endOverlap := some it } : MergeState).readBuffer[it]? =
      some entry := at_it
  have other : s.current ≠ .entry it := by rw [incoming]; exact CurrentBuffer.noConfusion
  by_cases disjoint : current.offset + current.data.length < entry.offset
  · rw [mergeStep_left_disjoint at_it hcur disjoint, mergeStep_left_disjoint at_it' hcur disjoint,
      unstarted]
    rfl
  · by_cases within : current.offset + current.data.length ≤ entry.offset + entry.data.length
    · have strictly : current.offset < entry.offset := by
        by_contra equal
        exact outside ⟨by omega, within⟩
      rw [mergeStep_left_overlap at_it hcur other strictly (by omega) within,
        mergeStep_left_overlap at_it' hcur other strictly (by omega) within, unstarted]
      simp only [MergeState.setEntry_eq, MergeState.setCurrent_incoming, incoming, Option.none_or,
        Option.some_or]
    · rw [mergeStep_complete at_it hcur starts (by omega),
        mergeStep_complete at_it' hcur starts (by omega), unstarted]
      rfl

end Step

/-! ### The loop -/

section Loop

variable {s : MergeState} {it start : Nat}

theorem mergeLoop_of_done (finished : s.done = true) : ∀ fuel it, mergeLoop fuel s it = s
  | 0, _ => rfl
  | _ + 1, _ => by simp only [mergeLoop, finished, Bool.true_eq_false, and_false, if_false]

theorem mergeLoop_of_end (past : s.readBuffer.length ≤ it) : ∀ fuel, mergeLoop fuel s it = s
  | 0 => rfl
  | _ + 1 => by
    simp only [mergeLoop]
    rw [if_neg (by omega)]

theorem mergeLoop_succ {fuel : Nat} (inside : it < s.readBuffer.length) (running : s.done = false) :
    mergeLoop (fuel + 1) s it = mergeLoop fuel (mergeStep s it) (it + 1) := by
  simp only [mergeLoop, inside, running, and_self, if_true]

theorem finishMerge_incoming (incoming : s.current = .incoming)
    (notInserted : s.currentAlreadyInserted = false) (started : s.startOverlap = some start) :
    finishMerge s = s.readBuffer.take start ++ s.buffer :: s.readBuffer.drop (s.endOverlap.getD start) := by
  simp only [finishMerge, started, notInserted, MergeState.currentValue_incoming s incoming]

theorem finishMerge_inserted (inserted : s.currentAlreadyInserted = true)
    (started : s.startOverlap = some start) :
    finishMerge s = s.readBuffer.take start ++ s.readBuffer.drop (s.endOverlap.getD start) := by
  simp only [finishMerge, started, inserted]

/-- The entry at `it` is the head of what the loop has left to visit. -/
theorem getElem?_of_drop_eq_cons {readBuffer rest : List StreamBuffer} {entry : StreamBuffer}
    (left : readBuffer.drop it = entry :: rest) : readBuffer[it]? = some entry := by
  have head := congrArg (fun l : List StreamBuffer => l[0]?) left
  simpa only [List.getElem?_drop, Nat.add_zero, List.getElem?_cons_zero] using head

/-- With the incoming buffer as `current` and the overlap range open from `start`, the loop
absorbs the entries from `it` on. -/
theorem finishMerge_absorb_incoming (rest : List StreamBuffer) :
    ∀ (s : MergeState) (it fuel : Nat), s.current = .incoming →
      s.currentAlreadyInserted = false → s.done = false → s.startOverlap = some start →
      s.endOverlap = some it → start ≤ it → s.readBuffer.drop it = rest → rest.length ≤ fuel →
      (∀ entry ∈ rest, s.buffer.offset ≤ entry.offset) →
      (∀ entry ∈ rest, s.buffer.offset = entry.offset →
        entry.offset + entry.data.length < s.buffer.offset + s.buffer.data.length) →
      finishMerge (mergeLoop fuel s it) = s.readBuffer.take start ++ absorb s.buffer rest := by
  induction rest with
  | nil =>
    intro s it fuel incoming notInserted _ started ended _ left _ _ _
    have past : s.readBuffer.length ≤ it := List.drop_eq_nil_iff.mp left
    rw [mergeLoop_of_end past, finishMerge_incoming incoming notInserted started, ended,
      Option.getD_some, left, absorb]
  | cons entry rest ih =>
    intro s it fuel incoming notInserted running started ended opened left room above longer
    have at_it := getElem?_of_drop_eq_cons left
    have inside : it < s.readBuffer.length := (List.getElem?_eq_some_iff.mp at_it).1
    have hcur := MergeState.currentValue_incoming s incoming
    have starts := above entry List.mem_cons_self
    have same := longer entry List.mem_cons_self
    obtain ⟨fuel, rfl⟩ : ∃ f, fuel = f + 1 := ⟨fuel - 1, by simp only [List.length_cons] at room; omega⟩
    rw [mergeLoop_succ inside running]
    by_cases disjoint : s.buffer.offset + s.buffer.data.length < entry.offset
    · -- left, no overlap: the loop stops in front of `entry`
      rw [mergeStep_left_disjoint at_it hcur disjoint, started]
      simp only [Option.isNone_some, Bool.false_eq_true, if_false]
      rw [mergeLoop_of_done rfl]
      simp only [finishMerge, notInserted, MergeState.currentValue, incoming, ended,
        Option.getD_some, left, absorb, disjoint, if_true]
    · by_cases within : s.buffer.offset + s.buffer.data.length ≤ entry.offset + entry.data.length
      · -- left overlap: `entry`'s tail joins the buffer and the loop stops
        have strictly : s.buffer.offset < entry.offset := by
          by_contra equal
          have := same (by omega)
          omega
        rw [mergeStep_left_overlap at_it hcur (by rw [incoming]; exact CurrentBuffer.noConfusion)
          strictly (by omega) within, mergeLoop_of_done rfl]
        simp only [finishMerge, started, Option.some_or, MergeState.setEntry_eq,
          MergeState.setCurrent_incoming, notInserted, MergeState.currentValue,
          incoming, Option.getD_some, List.take_set_of_le opened,
          List.drop_set_of_lt (Nat.lt_succ_self it)]
        rw [List.drop_add_one_eq_tail_drop, left, List.tail_cons, absorb, if_neg disjoint,
          if_pos within]
      · -- complete overlap: `entry` disappears into the buffer and the loop goes on
        rw [mergeStep_complete at_it hcur (by omega) (by omega), started, Option.some_or]
        have next := ih { s with startOverlap := some start, endOverlap := some (it + 1) } (it + 1)
          fuel incoming notInserted running rfl rfl (by omega)
          (by rw [List.drop_add_one_eq_tail_drop, left]; rfl)
          (by simp only [List.length_cons] at room; omega)
          (fun e mem => above e (List.mem_cons_of_mem _ mem))
          (fun e mem => longer e (List.mem_cons_of_mem _ mem))
        rw [next, absorb, if_neg disjoint, if_neg within]

/-- After a right overlap merged the buffer into the entry at `index`, the loop absorbs the entries
from `it` on into that entry. -/
theorem finishMerge_absorb_inserted (index : Nat) (rest : List StreamBuffer) :
    ∀ (s : MergeState) (it fuel : Nat) (merged : StreamBuffer), s.current = .entry index →
      s.currentAlreadyInserted = true → s.done = false → s.startOverlap = some (index + 1) →
      s.endOverlap = some it → index < it → s.readBuffer[index]? = some merged →
      s.readBuffer.drop it = rest → rest.length ≤ fuel →
      (∀ entry ∈ rest, merged.offset < entry.offset) →
      finishMerge (mergeLoop fuel s it) = s.readBuffer.take index ++ absorb merged rest := by
  induction rest with
  | nil =>
    intro s it fuel merged points inserted _ started ended _ at_index left _ _
    have past : s.readBuffer.length ≤ it := List.drop_eq_nil_iff.mp left
    rw [mergeLoop_of_end past, finishMerge_inserted inserted started, ended, Option.getD_some, left,
      List.take_add_one, at_index, absorb]
    simp only [Option.toList_some, List.append_nil]
  | cons entry rest ih =>
    intro s it fuel merged points inserted running started ended after at_index left room above
    have at_it := getElem?_of_drop_eq_cons left
    have inside : it < s.readBuffer.length := (List.getElem?_eq_some_iff.mp at_it).1
    have hcur : s.currentValue = merged := by
      rw [MergeState.currentValue_entry s points, List.getD_eq_getElem?_getD, at_index,
        Option.getD_some]
    have starts := above entry List.mem_cons_self
    have other : s.current ≠ .entry it := by
      rw [points]
      intro same
      cases same
      omega
    obtain ⟨fuel, rfl⟩ : ∃ f, fuel = f + 1 := ⟨fuel - 1, by simp only [List.length_cons] at room; omega⟩
    rw [mergeLoop_succ inside running]
    by_cases disjoint : merged.offset + merged.data.length < entry.offset
    · -- left, no overlap: the loop stops in front of `entry`
      rw [mergeStep_left_disjoint at_it hcur disjoint, started]
      simp only [Option.isNone_some, Bool.false_eq_true, if_false]
      rw [mergeLoop_of_done rfl]
      simp only [finishMerge, inserted, ended, Option.getD_some, left, List.take_add_one,
        at_index, absorb, disjoint, if_true, Option.toList_some, List.append_assoc,
        List.singleton_append]
    · by_cases within : merged.offset + merged.data.length ≤ entry.offset + entry.data.length
      · -- left overlap: `entry`'s tail joins the merged entry and the loop stops
        have index_inside : index < (s.readBuffer.set it { entry with data := [] }).length := by
          rw [List.length_set]; omega
        rw [mergeStep_left_overlap at_it hcur other starts (by omega) within, mergeLoop_of_done rfl]
        simp only [finishMerge, started, Option.some_or, MergeState.setEntry_eq,
          MergeState.setCurrent, points, inserted, Option.getD_some, List.take_add_one,
          List.getElem?_set_self index_inside, List.take_set_of_le (Nat.le_refl index),
          List.take_set_of_le (Nat.le_of_lt after), List.drop_set_of_lt (Nat.lt_succ_of_lt after),
          List.drop_set_of_lt (Nat.lt_succ_self it)]
        rw [List.drop_add_one_eq_tail_drop, left, List.tail_cons, absorb, if_neg disjoint,
          if_pos within]
        simp only [Option.toList_some, List.append_assoc, List.singleton_append]
      · -- complete overlap: `entry` disappears into the merged entry and the loop goes on
        rw [mergeStep_complete at_it hcur (by omega) (by omega), started, Option.some_or]
        have next := ih { s with startOverlap := some (index + 1), endOverlap := some (it + 1) }
          (it + 1) fuel merged points inserted running rfl rfl (by omega) at_index
          (by rw [List.drop_add_one_eq_tail_drop, left]; rfl)
          (by simp only [List.length_cons] at room; omega)
          (fun e mem => above e (List.mem_cons_of_mem _ mem))
        rw [next, absorb, if_neg disjoint, if_neg within]

end Loop

/-- The merge loop computes `mergeFrom`: on a read buffer whose entries before the binary search's
position end before the buffer starts, and whose entries from there on are ordered and apart, the
entries before stay and the rest is merged as `mergeFrom` says. -/
theorem mergeIntoReadBuffer_eq (before after : List StreamBuffer) (buffer : StreamBuffer)
    (nonempty : before ++ after ≠ [])
    (below : ∀ entry ∈ before, entry.offset + entry.data.length < buffer.offset)
    (reaching : ∀ entry ∈ after, buffer.offset ≤ entry.offset + entry.data.length)
    (apart : after.Pairwise (fun a b => a.offset + a.data.length < b.offset)) :
    mergeIntoReadBuffer (before ++ after) buffer = before ++ mergeFrom buffer after := by
  have found : LowerBound.lowerBound
      (fun listValue : StreamBuffer => decide (listValue.offset + listValue.data.length < buffer.offset))
      (before ++ after) = before.length :=
    LowerBound.lowerBound_append _ _ _ (fun entry mem => decide_eq_true (below entry mem))
      (fun entry mem => decide_eq_false (by have := reaching entry mem; omega))
  unfold mergeIntoReadBuffer
  simp only [found, List.length_append, Nat.add_sub_cancel_left]
  cases after with
  | nil =>
    -- everything ends before the buffer: it goes last
    have last_mem := List.getLast_mem (by simpa using nonempty)
    simp only [List.append_nil] at last_mem ⊢
    simp only [List.length_nil, mergeLoop, finishMerge,
      List.getLast?_eq_some_getLast (by simpa using nonempty), MergeState.currentValue,
      below _ last_mem, if_true, mergeFrom]
  | cons entry rest =>
    have left : (before ++ entry :: rest).drop before.length = entry :: rest := List.drop_left
    have at_it := getElem?_of_drop_eq_cons left
    have inside : before.length < (before ++ entry :: rest).length := by
      rw [List.length_append, List.length_cons]; omega
    have reach := reaching entry List.mem_cons_self
    have later : ∀ e ∈ rest, entry.offset + entry.data.length < e.offset :=
      (List.pairwise_cons.mp apart).1
    set initial : MergeState :=
      { readBuffer := before ++ entry :: rest, buffer := buffer, current := .incoming,
        currentAlreadyInserted := false, done := false, startOverlap := none,
        endOverlap := none } with initial_eq
    have at_initial : initial.readBuffer[before.length]? = some entry := at_it
    have hcur : initial.currentValue = buffer := rfl
    rw [List.length_cons, mergeLoop_succ inside rfl]
    by_cases holds : entry.offset ≤ buffer.offset ∧
        buffer.offset + buffer.data.length ≤ entry.offset + entry.data.length
    · -- subset or exact overlap: the read buffer already has these bytes
      rw [mergeStep_subset at_initial hcur holds.1 holds.2, mergeLoop_of_done rfl]
      obtain ⟨last, is_last⟩ : ∃ last, (entry :: rest).getLast? = some last :=
        ⟨_, List.getLast?_eq_some_getLast (List.cons_ne_nil entry rest)⟩
      have reaches_last : entry.offset + entry.data.length ≤ last.offset + last.data.length := by
        rcases List.mem_cons.mp (List.mem_of_getLast? is_last) with same | mem
        · subst same
          exact Nat.le_refl _
        · have := later last mem
          omega
      simp only [initial_eq, finishMerge, List.getLast?_append, is_last, Option.some_or,
        MergeState.currentValue, mergeFrom, holds, and_self, if_true]
      rw [if_neg (by omega)]
    · by_cases starts : buffer.offset ≤ entry.offset
      · -- the buffer starts first: it absorbs the entries it reaches
        rw [mergeStep_open at_initial hcur rfl rfl starts holds, ← mergeLoop_succ inside rfl,
          finishMerge_absorb_incoming (entry :: rest) _ before.length (rest.length + 1) rfl rfl rfl
            rfl rfl (Nat.le_refl _) left (Nat.le_refl _)]
        · rw [List.take_left, mergeFrom, if_neg holds, if_pos starts]
        · intro e mem
          show buffer.offset ≤ e.offset
          rcases List.mem_cons.mp mem with rfl | mem
          · exact starts
          · have := later e mem
            omega
        · intro e mem
          show buffer.offset = e.offset →
            e.offset + e.data.length < buffer.offset + buffer.data.length
          intro equal
          rcases List.mem_cons.mp mem with rfl | mem
          · omega
          · have := later e mem
            omega
      · -- right overlap: the entry takes the buffer's tail and absorbs what follows
        have merged_at : ((before ++ entry :: rest).set before.length
            { entry with data := entry.data ++
                buffer.data.drop (entry.offset + entry.data.length - buffer.offset) })[before.length]? =
            some { entry with data := entry.data ++
                buffer.data.drop (entry.offset + entry.data.length - buffer.offset) } :=
          List.getElem?_set_self inside
        rw [mergeStep_right_overlap at_initial hcur (by omega) reach (by omega),
          finishMerge_absorb_inserted before.length rest _ (before.length + 1) rest.length
            { entry with data := entry.data ++
                buffer.data.drop (entry.offset + entry.data.length - buffer.offset) }
            rfl rfl rfl rfl rfl (Nat.lt_succ_self _)]
        · simp only [initial_eq, MergeState.setEntry_eq, MergeState.setCurrent_incoming,
            List.take_set_of_le (Nat.le_refl _), List.take_left, mergeFrom, if_neg holds,
            if_neg starts]
        · simpa only [initial_eq, MergeState.setEntry_eq, MergeState.setCurrent_incoming] using
            merged_at
        · simp only [initial_eq, MergeState.setEntry_eq, MergeState.setCurrent_incoming,
            List.drop_set_of_lt (Nat.lt_succ_self _)]
          rw [List.drop_add_one_eq_tail_drop, left, List.tail_cons]
        · exact Nat.le_refl _
        · intro e mem
          show entry.offset < e.offset
          have := later e mem
          omega

end Mvfst
