import Mvfst.State.ReadBufferShape

/-!
Specifications of the receive path over a read buffer of the invariant's shape: what
`appendDataToReadBufferCommon` does after its final-size checks, what
`readDataInOrderFromReadBuffer` takes (`takeFront`), and what `readDataFromQuicStream` returns when
the peer has not reset the stream.
-/

namespace Mvfst

open FlowControl

/-! ### The final-size checks -/

/-- The checks change nothing but the final size. -/
theorem checkFinalReadOffset_ok {stream checked : QuicStreamLike} {bufferEofOffset : Option Nat}
    {bufferEndOffset : Nat}
    (passes : checkFinalReadOffset stream bufferEofOffset bufferEndOffset = .ok checked) :
    checked = { stream with finalReadOffset := checked.finalReadOffset } := by
  unfold checkFinalReadOffset at passes
  split at passes
  · cases passes
  · split at passes
    · split at passes
      · cases passes
      · cases passes
        rfl
    · split at passes
      · split at passes
        · cases passes
        · cases passes
          rfl
      · cases passes
        rfl

/-- Frames that agree with a final size `finalSize` (a FIN only at `finalSize`, no byte beyond it)
pass the checks on a stream that has seen nothing beyond it; a FIN records the final size. -/
theorem checkFinalReadOffset_consistent {stream : QuicStreamLike} {finalSize : Nat}
    {bufferEofOffset : Option Nat} {bufferEndOffset : Nat}
    (known : stream.finalReadOffset = none ∨ stream.finalReadOffset = some finalSize)
    (observed : stream.maxOffsetObserved ≤ finalSize) (inside : bufferEndOffset ≤ finalSize)
    (fin : bufferEofOffset = none ∨ bufferEofOffset = some finalSize) :
    checkFinalReadOffset stream bufferEofOffset bufferEndOffset =
      .ok { stream with finalReadOffset := bufferEofOffset.or stream.finalReadOffset } := by
  rcases fin with fin | fin
  · -- no FIN: the final size stays as it was
    subst fin
    show checkFinalReadOffset stream none bufferEndOffset = .ok stream
    unfold checkFinalReadOffset
    rcases known with known | known
    · simp [known]
    · simp only [known, Option.isSome_none, Bool.false_eq_true, false_and, and_false, if_false]
      rw [if_neg (by omega)]
  · subst fin
    unfold checkFinalReadOffset
    rcases known with known | known
    · simp only [known, Option.isSome_none, Bool.false_eq_true, false_and, if_false,
        Option.some_or]
      rw [if_neg (by omega)]
    · simp only [known, ne_eq, not_true_eq_false, and_false, if_false, Option.some_or]
      rw [if_neg (by omega)]

/-- The checks fail only with FINAL_SIZE_ERROR. -/
theorem checkFinalReadOffset_error {stream : QuicStreamLike} {bufferEofOffset : Option Nat}
    {bufferEndOffset : Nat} {e : QuicError}
    (failed : checkFinalReadOffset stream bufferEofOffset bufferEndOffset = .error e) :
    e.code = .transport .finalSizeError := by
  unfold checkFinalReadOffset at failed
  split at failed
  · cases failed
    rfl
  · split at failed
    · split at failed
      · cases failed
        rfl
      · cases failed
    · split at failed
      · split at failed
        · cases failed
          rfl
        · cases failed
      · cases failed

/-- Which frames the checks refuse: a FIN that disagrees with a known final size or cuts off bytes
already seen, and data past a known final size. -/
theorem checkFinalReadOffset_fails_iff (stream : QuicStreamLike) (buffer : StreamBuffer) :
    (∃ e, checkFinalReadOffset stream
        (if buffer.eof then some (buffer.offset + buffer.data.length) else none)
        (buffer.offset + buffer.data.length) = .error e) ↔
      (buffer.eof = true ∧ stream.finalReadOffset.isSome ∧
          stream.finalReadOffset ≠ some (buffer.offset + buffer.data.length)) ∨
        (buffer.eof = true ∧ buffer.offset + buffer.data.length < stream.maxOffsetObserved) ∨
        (buffer.eof = false ∧ stream.finalReadOffset.any (· < buffer.offset + buffer.data.length)) := by
  -- the checks branch on the FIN and on whether a final size is known
  cases fin : buffer.eof <;> cases final : stream.finalReadOffset <;>
    simp only [checkFinalReadOffset, final, if_true] <;> split_ifs <;> simp_all

/-! ### Storing a range -/

/-- Storing a non-empty range that starts at or after `lo` keeps the shape, covers the range in
addition, and keeps slices of `S`. -/
theorem store_spec {lo : Nat} (readBuffer : List StreamBuffer) (buffer : StreamBuffer)
    (shape : ReadBufferShape lo readBuffer) (fresh : lo ≤ buffer.offset)
    (nonempty : 0 < buffer.data.length) :
    ReadBufferShape lo (if readBuffer = [] then [buffer] else mergeIntoReadBuffer readBuffer buffer) ∧
      (∀ position,
        Covers (if readBuffer = [] then [buffer] else mergeIntoReadBuffer readBuffer buffer)
            position ↔
          Covers readBuffer position ∨
            (buffer.offset ≤ position ∧ position < buffer.offset + buffer.data.length)) ∧
      (∀ S, SlicesOf S readBuffer → buffer.data <+: S.drop buffer.offset →
        SlicesOf S (if readBuffer = [] then [buffer] else mergeIntoReadBuffer readBuffer buffer)) := by
  by_cases empty : readBuffer = []
  · subst empty
    simp only [if_true]
    refine ⟨⟨by simpa using nonempty, by simpa using fresh, List.pairwise_singleton _ _⟩, ?_, ?_⟩
    · intro position
      simp [covers_cons]
    · intro S _ slice entry mem
      rw [List.mem_singleton] at mem
      rw [mem]
      exact slice
  · rw [if_neg empty]
    exact mergeIntoReadBuffer_spec readBuffer buffer shape empty fresh nonempty

/-- After its checks, `appendDataToReadBufferCommon` runs the visitor, raises the largest observed
offset and stores the part of the range the application has not read yet. The read buffer keeps
its shape, covers that part in addition, and keeps slices of `S`. -/
theorem appendDataToReadBufferCommon_spec {σ : Type} (stream : QuicStreamLike) (conn : σ)
    (buffer : StreamBuffer) (connFlowControlVisitor : Nat → Nat → σ → σ) {checked : QuicStreamLike}
    (shape : ReadBufferShape stream.currentReadOffset stream.readBuffer)
    (passes : checkFinalReadOffset stream
      (if buffer.eof then some (buffer.offset + buffer.data.length) else none)
      (buffer.offset + buffer.data.length) = .ok checked)
    (relevant : buffer.eof = true ∨ 0 < buffer.data.length) :
    ∃ readBuffer,
      appendDataToReadBufferCommon stream conn buffer connFlowControlVisitor =
        .ok ({ checked with
            maxOffsetObserved := max stream.maxOffsetObserved (buffer.offset + buffer.data.length),
            readBuffer },
          connFlowControlVisitor stream.maxOffsetObserved (buffer.offset + buffer.data.length) conn) ∧
      ReadBufferShape stream.currentReadOffset readBuffer ∧
      (∀ position, Covers readBuffer position ↔
        Covers stream.readBuffer position ∨
          (stream.currentReadOffset ≤ position ∧ buffer.offset ≤ position ∧
            position < buffer.offset + buffer.data.length)) ∧
      (∀ S, SlicesOf S stream.readBuffer → buffer.data <+: S.drop buffer.offset →
        SlicesOf S readBuffer) := by
  have same := checkFinalReadOffset_ok passes
  have readBuffer_same : checked.readBuffer = stream.readBuffer := by rw [same]
  have offset_same : checked.currentReadOffset = stream.currentReadOffset := by rw [same]
  have observed_same : checked.maxOffsetObserved = stream.maxOffsetObserved := by rw [same]
  have not_skipped : ¬(buffer.eof = false ∧ buffer.data.length = 0) := by
    rcases relevant with fin | positive
    · simp [fin]
    · omega
  unfold appendDataToReadBufferCommon
  simp only [not_skipped, if_false, passes, readBuffer_same, offset_same, observed_same]
  -- when the range ends at or before the read offset, nothing is stored
  have nothing_new : (∀ position, stream.currentReadOffset ≤ position → buffer.offset ≤ position →
        buffer.offset + buffer.data.length ≤ position) →
      ∀ position, Covers stream.readBuffer position ↔
        Covers stream.readBuffer position ∨
          (stream.currentReadOffset ≤ position ∧ buffer.offset ≤ position ∧
            position < buffer.offset + buffer.data.length) := by
    intro read position
    constructor
    · exact .inl
    · rintro (held | ⟨past_read, past_start, inside⟩)
      · exact held
      · have := read position past_read past_start
        omega
  by_cases empty_data : buffer.data.length = 0
  · exact ⟨stream.readBuffer, by rw [if_pos empty_data], shape,
      nothing_new (fun _ _ _ => by omega), fun S slices _ => slices⟩
  rw [if_neg empty_data]
  by_cases behind : buffer.offset < stream.currentReadOffset
  · rw [if_pos behind]
    by_cases gone : (buffer.data.drop (stream.currentReadOffset - buffer.offset)).length = 0
    · rw [List.length_drop] at gone
      exact ⟨stream.readBuffer, by rw [List.length_drop, if_pos gone], shape,
        nothing_new (fun _ _ _ => by omega), fun S slices _ => slices⟩
    -- the bytes before the read offset are cut off, the rest is stored
    rw [if_neg gone]
    obtain ⟨stored_shape, stored_covers, stored_slices⟩ := store_spec stream.readBuffer
      { buffer with
        data := buffer.data.drop (stream.currentReadOffset - buffer.offset),
        offset := stream.currentReadOffset }
      shape (Nat.le_refl _) (Nat.pos_of_ne_zero gone)
    refine ⟨_, by split <;> rfl, stored_shape, ?_, ?_⟩
    · intro position
      have trimmed : (stream.currentReadOffset ≤ position ∧ position < stream.currentReadOffset +
            (buffer.data.drop (stream.currentReadOffset - buffer.offset)).length) ↔
          (stream.currentReadOffset ≤ position ∧ buffer.offset ≤ position ∧
            position < buffer.offset + buffer.data.length) := by
        rw [List.length_drop]
        omega
      rw [stored_covers position]
      exact or_congr_right trimmed
    · intro S slices slice
      apply stored_slices S slices
      have tail := prefix_drop_of_drop slice (stream.currentReadOffset - buffer.offset)
      rwa [show buffer.offset + (stream.currentReadOffset - buffer.offset) =
        stream.currentReadOffset by omega] at tail
  · rw [if_neg behind]
    obtain ⟨stored_shape, stored_covers, stored_slices⟩ :=
      store_spec stream.readBuffer buffer shape (by omega) (by omega)
    refine ⟨_, by split <;> rfl, stored_shape, ?_, stored_slices⟩
    intro position
    have whole : (buffer.offset ≤ position ∧ position < buffer.offset + buffer.data.length) ↔
        (stream.currentReadOffset ≤ position ∧ buffer.offset ≤ position ∧
          position < buffer.offset + buffer.data.length) := by
      omega
    rw [stored_covers position]
    exact or_congr_right whole

/-- Only the final-size checks make the append fail. -/
theorem appendDataToReadBufferCommon_error {σ : Type} {stream : QuicStreamLike} {conn : σ}
    {buffer : StreamBuffer} {connFlowControlVisitor : Nat → Nat → σ → σ} {e : QuicError}
    (failed : appendDataToReadBufferCommon stream conn buffer connFlowControlVisitor = .error e) :
    e.code = .transport .finalSizeError := by
  unfold appendDataToReadBufferCommon at failed
  by_cases skipped : buffer.eof = false ∧ buffer.data.length = 0
  · rw [if_pos skipped] at failed
    cases failed
  · rw [if_neg skipped] at failed
    cases checking : checkFinalReadOffset stream
        (if buffer.eof then some (buffer.offset + buffer.data.length) else none)
        (buffer.offset + buffer.data.length) with
    | error e' =>
      rw [checking] at failed
      cases failed
      exact checkFinalReadOffset_error checking
    | ok checked =>
      -- every path after the checks succeeds
      rw [checking] at failed
      simp only at failed
      split_ifs at failed

theorem not_skipped_of_relevant {buffer : StreamBuffer} (relevant : buffer.eof = true ∨ 0 < buffer.data.length) :
    ¬(buffer.eof = false ∧ buffer.data.length = 0) := by
  rintro ⟨fin, empty⟩
  rcases relevant with eof | positive
  · rw [fin] at eof
    cases eof
  · omega

/-- Once the checks pass, the append hands the old largest offset and the frame's end to the
visitor, whatever the visitor does, and raises the largest offset. -/
theorem appendDataToReadBufferCommon_visits {σ : Type} (stream : QuicStreamLike) (conn : σ)
    (buffer : StreamBuffer) (connFlowControlVisitor : Nat → Nat → σ → σ) {checked : QuicStreamLike}
    (passes : checkFinalReadOffset stream
      (if buffer.eof then some (buffer.offset + buffer.data.length) else none)
      (buffer.offset + buffer.data.length) = .ok checked)
    (relevant : buffer.eof = true ∨ 0 < buffer.data.length) :
    ∃ stream', appendDataToReadBufferCommon stream conn buffer connFlowControlVisitor =
        .ok (stream',
          connFlowControlVisitor stream.maxOffsetObserved (buffer.offset + buffer.data.length) conn) ∧
      stream'.maxOffsetObserved = max stream.maxOffsetObserved (buffer.offset + buffer.data.length) := by
  have observed_same : checked.maxOffsetObserved = stream.maxOffsetObserved := by
    rw [checkFinalReadOffset_ok passes]
  unfold appendDataToReadBufferCommon
  rw [if_neg (not_skipped_of_relevant relevant)]
  simp only [passes, observed_same]
  split_ifs <;> exact ⟨_, rfl, rfl⟩

/-- A frame the checks refuse is refused with their error. -/
theorem appendDataToReadBufferCommon_of_fails {σ : Type} {stream : QuicStreamLike} {conn : σ}
    {buffer : StreamBuffer} (connFlowControlVisitor : Nat → Nat → σ → σ) {e : QuicError}
    (fails : checkFinalReadOffset stream
      (if buffer.eof then some (buffer.offset + buffer.data.length) else none)
      (buffer.offset + buffer.data.length) = .error e)
    (relevant : buffer.eof = true ∨ 0 < buffer.data.length) :
    appendDataToReadBufferCommon stream conn buffer connFlowControlVisitor = .error e := by
  unfold appendDataToReadBufferCommon
  rw [if_neg (not_skipped_of_relevant relevant)]
  simp only [fails]

theorem appendDataToReadBuffer_final_size_checks (stream : QuicStreamState)
    (conn : ConnectionFlowControlState) (buffer : StreamBuffer)
    (relevant : buffer.eof = true ∨ 0 < buffer.data.length) :
    ((∃ e, appendDataToReadBuffer stream conn buffer = .error e) ↔
      (buffer.eof = true ∧ stream.finalReadOffset.isSome ∧
          stream.finalReadOffset ≠ some (buffer.offset + buffer.data.length)) ∨
        (buffer.eof = true ∧ buffer.offset + buffer.data.length < stream.maxOffsetObserved) ∨
        (buffer.eof = false ∧ stream.finalReadOffset.any (· < buffer.offset + buffer.data.length))) ∧
    ∀ e, appendDataToReadBuffer stream conn buffer = .error e →
      e.code = .transport .finalSizeError ∧
        checkFinalReadOffset stream.toQuicStreamLike
          (if buffer.eof then some (buffer.offset + buffer.data.length) else none)
          (buffer.offset + buffer.data.length) = .error e := by
  rw [← checkFinalReadOffset_fails_iff]
  unfold appendDataToReadBuffer
  cases checking : checkFinalReadOffset stream.toQuicStreamLike
      (if buffer.eof then some (buffer.offset + buffer.data.length) else none)
      (buffer.offset + buffer.data.length) with
  | error e =>
    -- refused by the checks, on the stream as it was passed in, before anything is updated
    rw [appendDataToReadBufferCommon_of_fails (streamDataVisitor stream) checking relevant]
    refine ⟨⟨fun _ => ⟨e, rfl⟩, fun _ => ⟨e, rfl⟩⟩, ?_⟩
    rintro e' refused
    cases refused
    exact ⟨checkFinalReadOffset_error checking, rfl⟩
  | ok checked =>
    -- accepted by the checks, the append succeeds
    obtain ⟨stream', succeeds, -⟩ :=
      appendDataToReadBufferCommon_visits stream.toQuicStreamLike conn buffer (streamDataVisitor stream)
        checking relevant
    rw [succeeds]
    simp

/-- Three bytes at offset 4 of a stream whose final size is 5 are refused. -/
theorem appendDataToReadBuffer_refuses_data_after_eof :
    ∃ e, appendDataToReadBuffer { id := 0, finalReadOffset := some 5 } {} ⟨[1, 2, 3], 4, false⟩ =
      .error e :=
  (appendDataToReadBuffer_final_size_checks _ _ _ (Or.inr (by decide))).1.mpr
    (Or.inr (Or.inr ⟨rfl, by decide⟩))

/-! ### Reading -/

/-- What a read of `amount` bytes (all of them for 0) takes from a read buffer of the invariant's
shape: the start of the first entry, when that entry begins at the read offset; the rest of the
entry stays. -/
def takeFront (currentReadOffset amount : Nat) : List StreamBuffer → List UInt8 × List StreamBuffer
  | [] => ([], [])
  | entry :: rest =>
    if entry.offset = currentReadOffset then
      let toRead := min entry.data.length (if amount = 0 then entry.data.length else amount)
      (entry.data.take toRead,
        if toRead = entry.data.length then rest
        else { entry with data := entry.data.drop toRead, offset := entry.offset + toRead } :: rest)
    else ([], entry :: rest)

/-- On a read buffer of the invariant's shape the read loop takes `takeFront`: after the first
entry the next one starts beyond the new read offset, so the loop stops there. -/
theorem readDataInOrderFromReadBuffer_spec (stream : QuicStreamLike) (amount : Nat)
    (shape : ReadBufferShape stream.currentReadOffset stream.readBuffer) :
    ∃ eof, readDataInOrderFromReadBuffer stream amount =
      some (((takeFront stream.currentReadOffset amount stream.readBuffer).1, eof),
        { stream with
          readBuffer := (takeFront stream.currentReadOffset amount stream.readBuffer).2,
          currentReadOffset := stream.currentReadOffset +
            (takeFront stream.currentReadOffset amount stream.readBuffer).1.length }) := by
  obtain ⟨readBuffer, currentReadOffset, maxOffsetObserved, finalReadOffset,
    reliableSizeFromPeer⟩ := stream
  simp only at shape ⊢
  unfold readDataInOrderFromReadBuffer
  cases readBuffer with
  | nil => exact ⟨false, by simp [readInOrderLoop, takeFront]⟩
  | cons entry rest =>
    have starts := shape.above entry List.mem_cons_self
    have positive := shape.nonempty entry List.mem_cons_self
    have later := (List.pairwise_cons.mp shape.apart).1
    by_cases here : entry.offset = currentReadOffset
    · -- the first entry is read from; the next iteration stops
      set toRead := min entry.data.length (if amount = 0 then entry.data.length else amount)
        with toRead_eq
      have popped_iff : (entry.data.drop toRead).length = 0 ↔ toRead = entry.data.length := by
        rw [List.length_drop]
        omega
      by_cases popped : toRead = entry.data.length
      · -- the entry is used up: the next one starts beyond the new read offset
        have stops : ∀ next ∈ rest, currentReadOffset + toRead < next.offset := by
          intro next mem
          have := later next mem
          omega
        have front : takeFront currentReadOffset amount (entry :: rest) =
            (entry.data.take toRead, rest) := by
          simp only [takeFront, here, if_true, ← toRead_eq, popped]
        have taken : (entry.data.take toRead).length = toRead := by
          rw [List.length_take]
          omega
        refine ⟨entry.eof, ?_⟩
        rw [readInOrderLoop]
        simp only [here, gt_iff_lt, Nat.lt_irrefl, if_false, ne_eq, not_true_eq_false,
          List.length_cons, ← toRead_eq, if_pos (Classical.em _), front, taken,
          popped_iff.mpr popped, if_true, Bool.false_eq_true, List.nil_append]
        rw [readInOrderLoop]
        cases rest with
        | nil => simp only [ite_self]
        | cons next rest =>
          simp only [gt_iff_lt, stops next List.mem_cons_self, if_true, ite_self]
      · -- the entry is cut short: exactly `amount` bytes were read, so the loop ends
        have cutShort : amount ≠ 0 ∧ toRead = amount := by
          by_cases zero : amount = 0
          · simp [toRead_eq, zero] at popped
          · rw [toRead_eq, if_neg zero] at popped ⊢
            omega
        have front : takeFront currentReadOffset amount (entry :: rest) =
            (entry.data.take toRead,
              { entry with data := entry.data.drop toRead, offset := entry.offset + toRead } ::
                rest) := by
          simp only [takeFront, here, if_true, ← toRead_eq, popped, if_false]
        have taken : (entry.data.take toRead).length = toRead := by
          rw [List.length_take]
          omega
        have nothing_left : amount - toRead = 0 := by omega
        refine ⟨false, ?_⟩
        rw [readInOrderLoop]
        simp only [here, gt_iff_lt, Nat.lt_irrefl, if_false, ne_eq, not_true_eq_false,
          List.length_cons, ← toRead_eq]
        rw [if_pos (Classical.em _), if_pos cutShort.1, nothing_left]
        simp only [front, taken, popped_iff.not.mpr popped, if_false, Bool.false_eq_true,
          List.nil_append]
        rw [readInOrderLoop]
        simp only [cutShort.1, ne_eq, not_true_eq_false, or_self, if_false, here]
    · -- the first entry starts beyond the read offset: nothing is read
      have beyond : currentReadOffset < entry.offset := by omega
      exact ⟨false, by simp [readInOrderLoop, takeFront, here, beyond]⟩

section TakeFront

variable (currentReadOffset amount : Nat) {readBuffer : List StreamBuffer}

/-- A read from a buffer of the invariant's shape leaves one of the invariant's shape at the new
read offset. -/
theorem takeFront_shape (shape : ReadBufferShape currentReadOffset readBuffer) :
    ReadBufferShape (currentReadOffset + (takeFront currentReadOffset amount readBuffer).1.length)
      (takeFront currentReadOffset amount readBuffer).2 := by
  cases readBuffer with
  | nil => exact readBufferShape_nil _
  | cons entry rest =>
    obtain ⟨later, apart_rest⟩ := List.pairwise_cons.mp shape.apart
    have positive := shape.nonempty entry List.mem_cons_self
    by_cases here : entry.offset = currentReadOffset
    · simp only [takeFront, here, if_true]
      have bounded : min entry.data.length (if amount = 0 then entry.data.length else amount) ≤
          entry.data.length := Nat.min_le_left _ _
      generalize min entry.data.length (if amount = 0 then entry.data.length else amount) =
        toRead at bounded ⊢
      rw [List.length_take, Nat.min_eq_left bounded]
      split
      · -- the entry is used up: the next ones start beyond its end
        refine ⟨fun e mem => shape.nonempty e (List.mem_cons_of_mem _ mem), ?_, apart_rest⟩
        intro e mem
        have := later e mem
        omega
      · -- the rest of the entry starts at the new read offset
        rename_i cut
        refine ⟨?_, ?_, ?_⟩
        · intro e mem
          rcases List.mem_cons.mp mem with rfl | mem
          · simp only [List.length_drop]
            omega
          · exact shape.nonempty e (List.mem_cons_of_mem _ mem)
        · intro e mem
          rcases List.mem_cons.mp mem with rfl | mem
          · simp only
            omega
          · have := later e mem
            omega
        · refine List.pairwise_cons.mpr ⟨?_, apart_rest⟩
          intro e mem
          have := later e mem
          simp only [List.length_drop]
          omega
    · simp only [takeFront, here, if_false, List.length_nil, Nat.add_zero]
      exact shape

/-- After a read the buffer covers what it covered from the new read offset on. -/
theorem takeFront_covers (shape : ReadBufferShape currentReadOffset readBuffer) (position : Nat) :
    Covers (takeFront currentReadOffset amount readBuffer).2 position ↔
      Covers readBuffer position ∧
        currentReadOffset + (takeFront currentReadOffset amount readBuffer).1.length ≤ position := by
  cases readBuffer with
  | nil => simp [takeFront]
  | cons entry rest =>
    have later := (List.pairwise_cons.mp shape.apart).1
    -- every covered offset lies in some entry, so at or after the read offset
    have above : ∀ e ∈ rest, entry.offset + entry.data.length < e.offset := later
    by_cases here : entry.offset = currentReadOffset
    · simp only [takeFront, here, if_true]
      have bounded : min entry.data.length (if amount = 0 then entry.data.length else amount) ≤
          entry.data.length := Nat.min_le_left _ _
      generalize min entry.data.length (if amount = 0 then entry.data.length else amount) =
        toRead at bounded ⊢
      rw [List.length_take, Nat.min_eq_left bounded]
      split
      · rename_i used
        constructor
        · intro held
          obtain ⟨e, mem, low, high⟩ := held
          have := above e mem
          exact ⟨(covers_cons).mpr (.inr ⟨e, mem, low, high⟩), by omega⟩
        · rintro ⟨held, past⟩
          rcases (covers_cons).mp held with ⟨_, inside⟩ | held
          · omega
          · exact held
      · rw [covers_cons, covers_cons]
        simp only [List.length_drop]
        constructor
        · rintro (⟨low, high⟩ | held)
          · exact ⟨.inl ⟨by omega, by omega⟩, by omega⟩
          · obtain ⟨e, mem, low, high⟩ := held
            have := above e mem
            exact ⟨.inr ⟨e, mem, low, high⟩, by omega⟩
        · rintro ⟨⟨_, high⟩ | held, past⟩
          · exact .inl ⟨by omega, by omega⟩
          · exact .inr held
    · simp only [takeFront, here, if_false, List.length_nil, Nat.add_zero]
      constructor
      · intro held
        obtain ⟨e, mem, low, _⟩ := held
        have := shape.above e mem
        exact ⟨⟨e, mem, by omega⟩, by omega⟩
      · exact fun held => held.1

/-- A read keeps the entries slices of `S`. -/
theorem takeFront_slices {S : List UInt8} (slices : SlicesOf S readBuffer) :
    SlicesOf S (takeFront currentReadOffset amount readBuffer).2 := by
  cases readBuffer with
  | nil => simp [takeFront, SlicesOf]
  | cons entry rest =>
    by_cases here : entry.offset = currentReadOffset
    · simp only [takeFront, here, if_true]
      generalize min entry.data.length (if amount = 0 then entry.data.length else amount) = toRead
      split
      · exact fun e mem => slices e (List.mem_cons_of_mem _ mem)
      · intro e mem
        rcases List.mem_cons.mp mem with rfl | mem
        · have tail := prefix_drop_of_drop (slices entry List.mem_cons_self) toRead
          rw [here] at tail
          exact tail
        · exact slices e (List.mem_cons_of_mem _ mem)
    · simp only [takeFront, here, if_false]
      exact slices

/-- The bytes a read returns are the bytes of `S` from the read offset on. -/
theorem takeFront_data {S : List UInt8} (slices : SlicesOf S readBuffer) :
    (takeFront currentReadOffset amount readBuffer).1 <+: S.drop currentReadOffset := by
  cases readBuffer with
  | nil => exact List.nil_prefix
  | cons entry rest =>
    by_cases here : entry.offset = currentReadOffset
    · simp only [takeFront, here, if_true]
      rw [← here]
      exact (List.take_prefix _ _).trans (slices entry List.mem_cons_self)
    · simp only [takeFront, here, if_false]
      exact List.nil_prefix

/-- A read never passes the end of what the buffer holds. -/
theorem takeFront_le {bound : Nat}
    (below : ∀ entry ∈ readBuffer, entry.offset + entry.data.length ≤ bound)
    (reading : currentReadOffset ≤ bound) :
    currentReadOffset + (takeFront currentReadOffset amount readBuffer).1.length ≤ bound ∧
      ∀ entry ∈ (takeFront currentReadOffset amount readBuffer).2,
        entry.offset + entry.data.length ≤ bound := by
  cases readBuffer with
  | nil => simpa [takeFront] using reading
  | cons entry rest =>
    have first := below entry List.mem_cons_self
    by_cases here : entry.offset = currentReadOffset
    · simp only [takeFront, here, if_true]
      have bounded : min entry.data.length (if amount = 0 then entry.data.length else amount) ≤
          entry.data.length := Nat.min_le_left _ _
      generalize min entry.data.length (if amount = 0 then entry.data.length else amount) =
        toRead at bounded ⊢
      refine ⟨by simp only [List.length_take]; omega, ?_⟩
      split
      · exact fun e mem => below e (List.mem_cons_of_mem _ mem)
      · intro e mem
        rcases List.mem_cons.mp mem with rfl | mem
        · simp only [List.length_drop]
          omega
        · exact below e (List.mem_cons_of_mem _ mem)
    · simp only [takeFront, here, if_false, List.length_nil, Nat.add_zero]
      exact ⟨reading, below⟩

end TakeFront

/-! ### The application's read -/

section Read

variable (stream : QuicStreamState) (conn : ConnectionFlowControlState) (amount : Nat)

/-- Once the read offset has reached the final size, a read returns no data and reports the end;
the first such read moves the offset one past the final size. -/
theorem readDataFromQuicStream_of_finished {finalSize : Nat}
    (final : stream.finalReadOffset = some finalSize)
    (reached : finalSize ≤ stream.currentReadOffset) :
    readDataFromQuicStream stream conn amount =
      some (.ok (([], true),
        if finalSize = stream.currentReadOffset then
          { stream with currentReadOffset := stream.currentReadOffset + 1 }
        else stream, conn)) := by
  unfold readDataFromQuicStream
  simp only [final, reached, decide_true, if_true, Option.some.injEq]

/-- Before the final size, a read takes `takeFront`, adds the bytes to the connection's read sum,
and reports the end exactly when it reaches the final size, moving the offset one past it. -/
theorem readDataFromQuicStream_of_reading (noReset : stream.reliableSizeFromPeer = none)
    (shape : ReadBufferShape stream.currentReadOffset stream.readBuffer)
    (before : ∀ finalSize, stream.finalReadOffset = some finalSize →
      stream.currentReadOffset < finalSize)
    (fits : conn.sumCurReadOffset +
      (takeFront stream.currentReadOffset amount stream.readBuffer).1.length ≤ uint64Max) :
    readDataFromQuicStream stream conn amount =
      let taken := takeFront stream.currentReadOffset amount stream.readBuffer
      let readOffset := stream.currentReadOffset + taken.1.length
      let eof := decide (stream.finalReadOffset = some readOffset)
      some (.ok ((taken.1, eof),
        { stream with
          readBuffer := taken.2,
          currentReadOffset := if eof then readOffset + 1 else readOffset },
        { conn with sumCurReadOffset := conn.sumCurReadOffset + taken.1.length })) := by
  obtain ⟨eof, read⟩ := readDataInOrderFromReadBuffer_spec stream.toQuicStreamLike amount shape
  unfold readDataFromQuicStream
  rw [if_neg]
  swap
  · -- the final size, if known, is still ahead of the read offset
    cases final : stream.finalReadOffset with
    | none => simp
    | some finalSize => simpa using before finalSize final
  simp only [read]
  -- the flow-control update sees the stream after the read, whose reset state is the old one
  rw [updateFlowControlOnRead_ok
    { stream with
      readBuffer := (takeFront stream.currentReadOffset amount stream.readBuffer).2
      currentReadOffset :=
        stream.currentReadOffset + (takeFront stream.currentReadOffset amount stream.readBuffer).1.length }
    conn noReset (by simpa using fits)]
  simp only [Nat.add_sub_cancel_left]
  split <;> rfl

end Read

end Mvfst
