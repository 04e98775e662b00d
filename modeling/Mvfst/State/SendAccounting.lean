import Mvfst.State.ReliableReset

/-!
The connection's count of buffered bytes over runs of the send side. A write raises
`sumCurStreamBufferLen` by the bytes it adds to `pendingWrites`; a STREAM frame of new data and a
reset lower it by the bytes they take out, the frame through `updateFlowControlOnWriteToSocket`,
whose subtraction wraps below 0. Along every run from a new stream the count is what it was at
the start plus the stream's unsent bytes, so that subtraction never wraps.

What carries it is where frames end. The scheduler treats a frame as new data exactly when it
starts at the write offset, and only a frame cut from `pendingWrites` may take more bytes than
the stream holds there. A frame cut from a lost buffer or cloned from one in flight ends by the
write offset, because every sent buffer, lost buffer and frame in flight does.
-/

namespace Mvfst

open FlowControl QuicStreamLike

/-- A buffer whose bytes all lie below `limit`. -/
def WriteStreamBuffer.EndsBy (limit : Nat) (buffer : WriteStreamBuffer) : Prop :=
  buffer.offset + buffer.data.length ≤ limit

/-- Every byte of the retransmission and loss buffers lies below the write offset. -/
structure QuicStreamLike.SentBelow (like : QuicStreamLike) : Prop where
  retransmission : ∀ entry ∈ like.retransmissionBuffer, entry.2.EndsBy like.currentWriteOffset
  loss : ∀ buffer ∈ like.lossBuffer, buffer.EndsBy like.currentWriteOffset

theorem WriteStreamBuffer.EndsBy.mono {limit limit' : Nat} {buffer : WriteStreamBuffer}
    (ends : buffer.EndsBy limit) (le : limit ≤ limit') : buffer.EndsBy limit' :=
  Nat.le_trans ends le

/-- Send buffers kept or shrunk, under a write offset kept or raised, stay below it. -/
theorem QuicStreamLike.SentBelow.of_subset {like like' : QuicStreamLike} (below : like.SentBelow)
    (sent : ∀ entry ∈ like'.retransmissionBuffer, entry ∈ like.retransmissionBuffer)
    (lost : ∀ buffer ∈ like'.lossBuffer, buffer ∈ like.lossBuffer)
    (grows : like.currentWriteOffset ≤ like'.currentWriteOffset) : like'.SentBelow :=
  ⟨fun entry member => (below.retransmission entry (sent entry member)).mono grows,
    fun buffer member => (below.loss buffer (lost buffer member)).mono grows⟩

namespace QuicStreamLike

variable {like : QuicStreamLike}

/-! ### Sending frames -/

theorem mem_of_lookup {entries : List (Nat × WriteStreamBuffer)} {key : Nat} {buffer : WriteStreamBuffer}
    (found : entries.lookup key = some buffer) : (key, buffer) ∈ entries := by
  obtain ⟨before, after, rfl, -⟩ := List.lookup_eq_some_iff.mp found
  exact List.mem_append_right _ List.mem_cons_self

theorem insertIntoLossBuffer_eq (buf : WriteStreamBuffer) :
    like.insertIntoLossBuffer buf = { like with lossBuffer := (like.insertIntoLossBuffer buf).lossBuffer } := by
  unfold insertIntoLossBuffer
  dsimp only
  split
  · rfl
  · split
    · rfl
    · split <;> rfl

/-- A buffer after the insertion is an old one, or ends where the inserted one does: the inserted
buffer itself, or the one before it that it was appended to. -/
theorem mem_insertIntoLossBuffer {buf buffer : WriteStreamBuffer}
    (member : buffer ∈ (like.insertIntoLossBuffer buf).lossBuffer) :
    buffer ∈ like.lossBuffer ∨ buffer.offset + buffer.data.length = buf.offset + buf.data.length := by
  have emplaced : ∀ index, buffer ∈ like.lossBuffer.insertIdx index buf →
      buffer ∈ like.lossBuffer ∨ buffer.offset + buffer.data.length = buf.offset + buf.data.length := by
    intro index inserted
    by_cases room : index ≤ like.lossBuffer.length
    · rcases (List.mem_insertIdx room).mp inserted with rfl | old
      · exact .inr rfl
      · exact .inl old
    · rw [List.insertIdx_of_length_lt (by omega)] at inserted
      exact .inl inserted
  unfold insertIntoLossBuffer at member
  dsimp only at member
  split at member
  · exact emplaced _ member
  · split at member
    · exact emplaced _ member
    · rename_i previous _
      split at member
      · rename_i contiguous
        rcases List.mem_or_eq_of_mem_set member with old | rfl
        · exact .inl old
        · -- the lost buffer went onto the end of the one before it
          right
          simp only [List.length_append]
          omega
      · exact emplaced _ member

theorem SentBelow.markPacketLossWriteStreamFrame (below : like.SentBelow) (frame : WriteStreamFrame) :
    (Mvfst.markPacketLossWriteStreamFrame like frame).SentBelow ∧
      (Mvfst.markPacketLossWriteStreamFrame like frame).pendingWrites = like.pendingWrites ∧
      (Mvfst.markPacketLossWriteStreamFrame like frame).currentWriteOffset = like.currentWriteOffset := by
  unfold Mvfst.markPacketLossWriteStreamFrame
  split
  · exact ⟨below, rfl, rfl⟩
  · rename_i buffer found
    rw [insertIntoLossBuffer_eq]
    refine ⟨⟨fun entry member => below.retransmission entry (List.mem_of_mem_filter member),
      fun lost member => ?_⟩, rfl, rfl⟩
    rcases mem_insertIntoLossBuffer member with old | sameEnd
    · exact below.loss lost old
    · -- the lost buffer was sent, so it ends by the write offset
      have sent := below.retransmission _ (mem_of_lookup found)
      exact sameEnd.trans_le sent

theorem SentBelow.handleNewStreamDataWritten (below : like.SentBelow) {frameLen : Nat} {frameFin : Bool}
    {like' : QuicStreamLike} (written : Mvfst.handleNewStreamDataWritten like frameLen frameFin = some like') :
    like'.SentBelow ∧ like'.pendingWrites = like.pendingWrites.drop frameLen ∧
      like'.currentWriteOffset = like.currentWriteOffset + frameLen + if frameFin then 1 else 0 := by
  unfold Mvfst.handleNewStreamDataWritten at written
  dsimp only at written
  by_cases taken : (like.retransmissionBuffer.lookup like.currentWriteOffset).isSome
  · rw [if_pos taken] at written
    cases written
  rw [if_neg taken, Option.some.injEq] at written
  subst written
  have grows : like.currentWriteOffset ≤ like.currentWriteOffset + frameLen + if frameFin then 1 else 0 := by
    omega
  refine ⟨⟨fun entry member => ?_, fun lost member => (below.loss lost member).mono grows⟩, rfl, rfl⟩
  rcases List.mem_cons.mp member with rfl | old
  · -- the new buffer holds at most the frame's bytes, from the old write offset
    show like.currentWriteOffset + (like.pendingWrites.take frameLen).length ≤
      like.currentWriteOffset + frameLen + if frameFin then 1 else 0
    rw [List.length_take]
    omega
  · exact (below.retransmission entry old).mono grows

/-- A frame cut from a lost buffer starting where it does moves its bytes to the retransmission
buffer and leaves the rest, if any, lost. Neither ends past the frame or the lost buffer. -/
theorem SentBelow.handleRetransmissionWritten (below : like.SentBelow)
    {frameOffset frameLen lossBufferIter : Nat} {frameFin : Bool} {lossBuffer : WriteStreamBuffer}
    {like' : QuicStreamLike} (found : like.lossBuffer[lossBufferIter]? = some lossBuffer)
    (starts : lossBuffer.offset = frameOffset) (inside : frameOffset + frameLen ≤ like.currentWriteOffset)
    (written : Mvfst.handleRetransmissionWritten like frameOffset frameLen frameFin lossBufferIter = some like') :
    like'.SentBelow ∧ like'.pendingWrites = like.pendingWrites ∧
      like'.currentWriteOffset = like.currentWriteOffset := by
  have lost : lossBuffer.EndsBy like.currentWriteOffset := below.loss lossBuffer (List.mem_of_getElem? found)
  unfold Mvfst.handleRetransmissionWritten at written
  rw [found] at written
  dsimp only at written
  split_ifs at written with taken whole
  · -- the whole lost buffer is sent again
    simp only [Option.some.injEq] at written
    subst written
    refine ⟨⟨fun entry member => ?_, fun other member => below.loss other (List.mem_of_mem_eraseIdx member)⟩,
      rfl, rfl⟩
    rcases List.mem_cons.mp member with rfl | old
    · show frameOffset + lossBuffer.data.length ≤ like.currentWriteOffset
      omega
    · exact below.retransmission entry old
  · -- the front of the lost buffer is sent again, and the rest stays lost
    simp only [Option.some.injEq] at written
    subst written
    refine ⟨⟨fun entry member => ?_, fun other member => ?_⟩, rfl, rfl⟩
    · rcases List.mem_cons.mp member with rfl | old
      · show frameOffset + (lossBuffer.data.take frameLen).length ≤ like.currentWriteOffset
        rw [List.length_take]
        omega
      · exact below.retransmission entry old
    · rcases List.mem_or_eq_of_mem_set member with old | rfl
      · exact below.loss other old
      · show lossBuffer.offset + frameLen + (lossBuffer.data.drop frameLen).length ≤ like.currentWriteOffset
        unfold WriteStreamBuffer.EndsBy at lost
        rw [List.length_drop]
        omega

/-- Writing a STREAM frame: new data starts at the write offset, moves it past the frame and takes
the frame's bytes from `pendingWrites`; any other frame leaves both. Either way the send buffers
stay below the write offset, as long as a frame not starting there ends by it. -/
theorem SentBelow.handleStreamWritten (below : like.SentBelow) {frameOffset frameLen : Nat}
    {frameFin newData : Bool} {like' : QuicStreamLike}
    (inside : frameOffset ≠ like.currentWriteOffset → frameOffset + frameLen ≤ like.currentWriteOffset)
    (written : Mvfst.handleStreamWritten like frameOffset frameLen frameFin = some (.ok (newData, like'))) :
    like'.SentBelow ∧
      (newData = true ∧ frameOffset = like.currentWriteOffset ∧
          like'.pendingWrites = like.pendingWrites.drop frameLen ∧
          like'.currentWriteOffset = like.currentWriteOffset + frameLen + (if frameFin then 1 else 0) ∨
        newData = false ∧ frameOffset < like.currentWriteOffset ∧ like'.pendingWrites = like.pendingWrites ∧
          like'.currentWriteOffset = like.currentWriteOffset) := by
  unfold Mvfst.handleStreamWritten at written
  split_ifs at written with fresh beyond
  · obtain ⟨written', ran, same⟩ := Option.map_eq_some_iff.mp written
    simp only [Except.ok.injEq, Prod.mk.injEq] at same
    obtain ⟨rfl, rfl⟩ := same
    obtain ⟨sent, pending, offset⟩ := below.handleNewStreamDataWritten ran
    exact ⟨sent, .inl ⟨rfl, fresh, pending, offset⟩⟩
  · cases written
  · -- below the write offset: a cut of the lost buffer starting there, or a clone
    have ends := inside fresh
    have below' : frameOffset < like.currentWriteOffset := by omega
    dsimp only at written
    split at written
    · rename_i lossBuffer found
      split_ifs at written with starts
      · obtain ⟨written', ran, same⟩ := Option.map_eq_some_iff.mp written
        simp only [Except.ok.injEq, Prod.mk.injEq] at same
        obtain ⟨rfl, rfl⟩ := same
        obtain ⟨sent, pending, offset⟩ := below.handleRetransmissionWritten found starts ends ran
        exact ⟨sent, .inr ⟨rfl, below', pending, offset⟩⟩
      · cases written
        exact ⟨below, .inr ⟨rfl, below', rfl, rfl⟩⟩
    · cases written
      exact ⟨below, .inr ⟨rfl, below', rfl, rfl⟩⟩

end QuicStreamLike

theorem sumCurStreamBufferLen_updateFlowControlOnWriteToSocket {conn conn' : ConnectionFlowControlState}
    {length : Nat} (ok : updateFlowControlOnWriteToSocket conn length = .ok conn') :
    conn'.sumCurStreamBufferLen = wrappingSub conn.sumCurStreamBufferLen length := by
  unfold updateFlowControlOnWriteToSocket at ok
  split at ok
  · cases ok
  · cases ok
    rfl

/-- The STREAM frame case of `updateConnection`: the stream's side is `handleStreamWritten`, and
only new data lowers the connection's buffered count, by the frame's length. -/
theorem updateConnectionWriteStreamFrame_ok {stream stream' : QuicStreamState}
    {conn conn' : ConnectionFlowControlState} {frame : WriteStreamFrame}
    (updated : updateConnectionWriteStreamFrame stream conn frame = some (.ok (stream', conn'))) :
    ∃ newData like', handleStreamWritten stream.toQuicStreamLike frame.offset frame.len frame.fin =
        some (.ok (newData, like')) ∧ stream' = { stream with toQuicStreamLike := like' } ∧
      conn'.sumCurStreamBufferLen =
        if newData then wrappingSub conn.sumCurStreamBufferLen frame.len else conn.sumCurStreamBufferLen := by
  unfold updateConnectionWriteStreamFrame at updated
  split at updated
  · cases updated
  · cases updated
  · rename_i newData written handled
    refine ⟨newData, written, handled, ?_⟩
    cases newData
    · cases updated
      exact ⟨rfl, rfl⟩
    · simp only [if_true, Option.some.injEq] at updated ⊢
      split at updated
      · cases updated
      · rename_i conn'' ok
        cases updated
        exact ⟨rfl, sumCurStreamBufferLen_updateFlowControlOnWriteToSocket ok⟩

/-! ### Acknowledgements and writes -/

theorem QuicStreamLike.updateAckedIntervals_ok {like like' : QuicStreamLike} {offset len : Nat} {eof : Bool}
    (ok : like.updateAckedIntervals offset len eof = some (.ok like')) :
    like' = { like with ackedIntervals := like'.ackedIntervals } := by
  unfold updateAckedIntervals at ok
  dsimp only at ok
  split_ifs at ok
  all_goals
    simp only [Option.some.injEq] at ok
    split at ok
    · cases ok
    · cases ok
      rfl

/-- An acknowledged frame only takes its buffer out of the retransmission buffer. -/
theorem sendAckSMHandler_ok {stream stream' : QuicStreamState} {frame : WriteStreamFrame}
    (acked : sendAckSMHandler stream frame = some (.ok stream')) :
    stream'.pendingWrites = stream.pendingWrites ∧ stream'.currentWriteOffset = stream.currentWriteOffset ∧
      stream'.lossBuffer = stream.lossBuffer ∧
      ∀ entry ∈ stream'.retransmissionBuffer, entry ∈ stream.retransmissionBuffer := by
  -- the closing transition at the end changes the send state only
  have closes : ∀ (closed : Prop) [Decidable closed] (acknowledged : QuicStreamState),
      (if closed then some (Except.ok { acknowledged with sendState := .closed }) else some (.ok acknowledged)) =
        (some (.ok stream') : Option (Except QuicError QuicStreamState)) →
      stream'.toQuicStreamLike = acknowledged.toQuicStreamLike := by
    intro closed _ acknowledged done
    split_ifs at done <;> cases done <;> rfl
  unfold sendAckSMHandler at acked
  cases sending : stream.sendState with
  | closed =>
    simp only [sending] at acked
    cases acked
    exact ⟨rfl, rfl, rfl, fun _ member => member⟩
  | invalid => simp [sending] at acked
  | opened | resetSent =>
    simp only [sending] at acked
    cases found : stream.retransmissionBuffer.lookup frame.offset with
    | none =>
      simp only [found] at acked
      have same := closes _ stream acked
      exact ⟨congrArg QuicStreamLike.pendingWrites same, congrArg QuicStreamLike.currentWriteOffset same,
        congrArg QuicStreamLike.lossBuffer same, fun entry member => by rwa [same] at member⟩
    | some ackedBuffer =>
      simp only [found] at acked
      by_cases mismatch : frame.offset ≠ ackedBuffer.offset ∨ frame.len ≠ ackedBuffer.data.length ∨
          frame.fin ≠ ackedBuffer.eof
      · rw [if_pos mismatch] at acked
        cases acked
      rw [if_neg mismatch] at acked
      cases ok : stream.updateAckedIntervals ackedBuffer.offset ackedBuffer.data.length ackedBuffer.eof with
      | none =>
        simp only [ok] at acked
        cases acked
      | some result =>
        cases result with
        | error e =>
          simp only [ok] at acked
          cases acked
        | ok like =>
          simp only [ok] at acked
          -- the acknowledged stream is `like`, with the frame's buffer filtered out
          have same := closes _ _ acked
          have updated := QuicStreamLike.updateAckedIntervals_ok ok
          have pending : like.pendingWrites = stream.pendingWrites := by rw [updated]
          have offset : like.currentWriteOffset = stream.currentWriteOffset := by rw [updated]
          have lost : like.lossBuffer = stream.lossBuffer := by rw [updated]
          have sent : like.retransmissionBuffer = stream.retransmissionBuffer := by rw [updated]
          rw [same]
          exact ⟨pending, offset, lost, fun entry member => sent ▸ List.mem_of_mem_filter member⟩

/-- An acknowledged reset records the reliable size acknowledged and touches no send buffer. -/
theorem sendRstAckSMHandler_ok {stream stream' : QuicStreamState} {reliableSize : Option Nat}
    (acked : sendRstAckSMHandler stream reliableSize = .ok stream') :
    stream'.pendingWrites = stream.pendingWrites ∧ stream'.currentWriteOffset = stream.currentWriteOffset ∧
      stream'.retransmissionBuffer = stream.retransmissionBuffer ∧ stream'.lossBuffer = stream.lossBuffer := by
  unfold sendRstAckSMHandler at acked
  split at acked
  · dsimp only at acked
    split_ifs at acked <;> cases acked <;> exact ⟨rfl, rfl, rfl, rfl⟩
  · cases acked
    exact ⟨rfl, rfl, rfl, rfl⟩
  · cases acked
  · cases acked

theorem incrementWithOverFlowCheck_eq_ok {num diff result : Nat}
    (ok : incrementWithOverFlowCheck num diff = .ok result) : result = num + diff ∧ num ≤ uint64Max - diff := by
  unfold incrementWithOverFlowCheck at ok
  split at ok
  · cases ok
  · cases ok
    exact ⟨rfl, by omega⟩

/-- A write appends its bytes to `pendingWrites` and adds them to the buffered count, which it
only does while the sum stays within 64 bits. -/
theorem writeDataToQuicStream_ok {stream stream' : QuicStreamState} {conn conn' : ConnectionFlowControlState}
    {data : List UInt8} {eof : Bool} (written : writeDataToQuicStream stream conn data eof = .ok (stream', conn')) :
    stream'.pendingWrites = stream.pendingWrites ++ data ∧
      stream'.currentWriteOffset = stream.currentWriteOffset ∧
      stream'.retransmissionBuffer = stream.retransmissionBuffer ∧ stream'.lossBuffer = stream.lossBuffer ∧
      conn'.sumCurStreamBufferLen = conn.sumCurStreamBufferLen + data.length ∧
      conn.sumCurStreamBufferLen ≤ uint64Max - data.length := by
  unfold writeDataToQuicStream at written
  dsimp only at written
  split at written
  · cases written
  · rename_i conn'' flow
    unfold updateFlowControlOnWriteToStream at flow
    split at flow
    · cases flow
    · rename_i sumCurStreamBufferLen counted
      cases flow
      obtain ⟨added, within⟩ := incrementWithOverFlowCheck_eq_ok counted
      simp only [Except.ok.injEq, Prod.mk.injEq] at written
      obtain ⟨rfl, rfl⟩ := written
      split <;> exact ⟨rfl, rfl, rfl, rfl, added, within⟩

/-! ### Resets -/

namespace QuicStreamLike

variable {like : QuicStreamLike}

theorem SentBelow.removeFromRetransmissionBufStartingAtOffset (below : like.SentBelow) (startingOffset : Nat) :
    (like.removeFromRetransmissionBufStartingAtOffset startingOffset).SentBelow := by
  refine ⟨fun entry member => ?_, below.loss⟩
  rw [currentWriteOffset_removeFromRetransmissionBufStartingAtOffset]
  unfold QuicStreamLike.removeFromRetransmissionBufStartingAtOffset at member
  obtain ⟨kept, filtered, rfl⟩ := List.mem_map.mp member
  have sent := below.retransmission kept (List.mem_of_mem_filter filtered)
  -- a buffer reaching the reset offset is cut, which keeps its start
  unfold WriteStreamBuffer.EndsBy at sent ⊢
  split_ifs
  · simp only [List.length_take]
    omega
  · exact sent

@[simp]
theorem lossBuffer_removeFromPendingWritesStartingAtOffset (startingOffset : Nat) :
    (like.removeFromPendingWritesStartingAtOffset startingOffset).lossBuffer = like.lossBuffer := by
  unfold QuicStreamLike.removeFromPendingWritesStartingAtOffset
  split <;> [rfl; split <;> rfl]

theorem SentBelow.removeFromPendingWritesStartingAtOffset (below : like.SentBelow) (startingOffset : Nat) :
    (like.removeFromPendingWritesStartingAtOffset startingOffset).SentBelow := by
  refine ⟨fun entry member => ?_, fun buffer member => ?_⟩
  all_goals rw [currentWriteOffset_removeFromPendingWritesStartingAtOffset]
  · rw [retransmissionBuffer_removeFromPendingWritesStartingAtOffset] at member
    exact below.retransmission entry member
  · rw [lossBuffer_removeFromPendingWritesStartingAtOffset] at member
    exact below.loss buffer member

theorem endsBy_removeFromLossBufStartingAtOffsetLoop {limit startingOffset : Nat} :
    ∀ {buffers : List WriteStreamBuffer}, (∀ buffer ∈ buffers, buffer.EndsBy limit) →
      ∀ buffer ∈ removeFromLossBufStartingAtOffsetLoop startingOffset buffers, buffer.EndsBy limit
  | [], _, _, member => nomatch member
  | lastElement :: earlier, ends, buffer, member => by
    unfold removeFromLossBufStartingAtOffsetLoop at member
    split_ifs at member
    · exact endsBy_removeFromLossBufStartingAtOffsetLoop (fun other kept => ends other (.tail _ kept)) buffer member
    · -- the last buffer reaching the reset offset is cut, which keeps its start
      rcases List.mem_cons.mp member with rfl | kept
      · have lastEnds := ends lastElement List.mem_cons_self
        unfold WriteStreamBuffer.EndsBy at lastEnds ⊢
        simp only [List.length_take]
        omega
      · exact ends buffer (.tail _ kept)
    · exact ends buffer member

theorem SentBelow.removeFromLossBufStartingAtOffset (below : like.SentBelow) (startingOffset : Nat) :
    (like.removeFromLossBufStartingAtOffset startingOffset).SentBelow := by
  refine ⟨fun entry member => ?_, fun buffer member => ?_⟩
  · rw [retransmissionBuffer_removeFromLossBufStartingAtOffset] at member
    exact below.retransmission entry member
  unfold QuicStreamLike.removeFromLossBufStartingAtOffset at member
  exact endsBy_removeFromLossBufStartingAtOffsetLoop
    (fun other kept => below.loss other (List.mem_reverse.mp kept)) buffer (List.mem_reverse.mp member)

end QuicStreamLike

/-- A reset keeps the write offset and the send buffers below it, and drops unsent bytes only. -/
theorem resetQuicStream_shrinks {stream stream' : QuicStreamState} {conn conn' : ConnectionFlowControlState}
    {reliableSize : Option Nat} (below : stream.toQuicStreamLike.SentBelow)
    (reset : resetQuicStream stream conn reliableSize = .ok (stream', conn')) :
    stream'.toQuicStreamLike.SentBelow ∧ stream'.pendingWrites.length ≤ stream.pendingWrites.length ∧
      stream'.currentWriteOffset = stream.currentWriteOffset := by
  -- everything unsent, sent or lost goes
  have dropped : ∀ stream'' : QuicStreamState, stream''.currentWriteOffset = stream.currentWriteOffset →
      stream''.retransmissionBuffer = [] → stream''.pendingWrites = [] → stream''.lossBuffer = [] →
      stream''.toQuicStreamLike.SentBelow ∧ stream''.pendingWrites.length ≤ stream.pendingWrites.length ∧
        stream''.currentWriteOffset = stream.currentWriteOffset := by
    intro stream'' offset sent pending lost
    refine ⟨⟨fun entry member => ?_, fun buffer member => ?_⟩, by simp [pending], offset⟩
    · rw [sent] at member
      cases member
    · rw [lost] at member
      cases member
  unfold resetQuicStream at reset
  split at reset
  · cases reset
  · rcases reliableSize with _ | reliableSize
    · simp only [Except.ok.injEq, Prod.mk.injEq] at reset
      obtain ⟨rfl, rfl⟩ := reset
      exact dropped _ rfl rfl rfl rfl
    · by_cases positive : reliableSize > 0
      · simp only [positive, if_true, Except.ok.injEq, Prod.mk.injEq] at reset
        obtain ⟨rfl, rfl⟩ := reset
        -- only what lies at or past the reliable size goes
        have cut := (((below.removeFromRetransmissionBufStartingAtOffset reliableSize
          ).removeFromPendingWritesStartingAtOffset reliableSize).removeFromLossBufStartingAtOffset reliableSize)
        refine ⟨⟨cut.retransmission, cut.loss⟩, ?_, ?_⟩
        · show ((((stream.toQuicStreamLike.removeFromRetransmissionBufStartingAtOffset reliableSize
            ).removeFromPendingWritesStartingAtOffset reliableSize).removeFromLossBufStartingAtOffset
              reliableSize).pendingWrites).length ≤ _
          rw [pendingWrites_removeFromLossBufStartingAtOffset, pendingWrites_removeFromPendingWritesStartingAtOffset,
            pendingWrites_removeFromRetransmissionBufStartingAtOffset]
          exact List.length_take_le' _ _
        · show (((stream.toQuicStreamLike.removeFromRetransmissionBufStartingAtOffset reliableSize
            ).removeFromPendingWritesStartingAtOffset reliableSize).removeFromLossBufStartingAtOffset
              reliableSize).currentWriteOffset = _
          rw [show ∀ like : QuicStreamLike, (like.removeFromLossBufStartingAtOffset reliableSize).currentWriteOffset =
              like.currentWriteOffset from fun _ => rfl, currentWriteOffset_removeFromPendingWritesStartingAtOffset,
            currentWriteOffset_removeFromRetransmissionBufStartingAtOffset]
      · simp only [positive, if_false, Except.ok.injEq, Prod.mk.injEq] at reset
        obtain ⟨rfl, rfl⟩ := reset
        exact dropped _ rfl rfl rfl rfl

/-- A reset of an open stream runs `resetQuicStream` with the error code recorded; on a stream
already reset or closed it changes nothing. -/
theorem sendRstSMHandler_ok {stream stream' : QuicStreamState} {conn conn' : ConnectionFlowControlState}
    {errorCode : Nat} {reliableSize : Option Nat}
    (reset : sendRstSMHandler stream conn errorCode reliableSize = some (.ok (stream', conn'))) :
    stream' = stream ∧ conn' = conn ∨
      ∃ resetStream : QuicStreamState,
        resetQuicStream { stream with appErrorCodeToPeer := some errorCode } conn reliableSize =
          .ok (resetStream, conn') ∧ stream'.toQuicStreamLike = resetStream.toQuicStreamLike := by
  unfold sendRstSMHandler at reset
  cases sending : stream.sendState with
  | opened =>
    simp only [sending] at reset
    split_ifs at reset
    simp only [Option.some.injEq] at reset
    split at reset
    · cases reset
    · rename_i resetStream resetConn resetDone
      simp only [Except.ok.injEq, Prod.mk.injEq] at reset
      obtain ⟨rfl, rfl⟩ := reset
      exact .inr ⟨resetStream, resetDone, rfl⟩
  | closed | resetSent =>
    simp only [sending] at reset
    cases reset
    exact .inl ⟨rfl, rfl⟩
  | invalid => simp [sending] at reset

/-! ### The sender -/

namespace Sender

variable {s s' : Sender} {base : Nat}

/-- The accounting of the send side, against the count `base` the connection held before the
stream's first byte: the buffered count is `base` plus the unsent bytes and fits its 64 bits, and
the sent buffers, the lost buffers and the frames in flight all end by the write offset. -/
structure Accounted (base : Nat) (s : Sender) : Prop where
  buffered : s.conn.sumCurStreamBufferLen = base + s.stream.pendingWrites.length
  fits : s.conn.sumCurStreamBufferLen ≤ uint64Max
  sent : s.stream.toQuicStreamLike.SentBelow
  inFlight : ∀ frame ∈ s.outstanding, frame.offset + frame.len ≤ s.stream.currentWriteOffset

theorem Fresh.accounted (fresh : s.Fresh) (fits : s.conn.sumCurStreamBufferLen ≤ uint64Max) :
    s.Accounted s.conn.sumCurStreamBufferLen := by
  have empty : s.stream.toQuicStreamLike = {} := fresh.stream
  refine ⟨?_, fits, ⟨fun entry member => ?_, fun buffer member => ?_⟩, fun frame member => ?_⟩
  · show _ = _ + s.stream.toQuicStreamLike.pendingWrites.length
    rw [empty]
    rfl
  · rw [empty] at member
    cases member
  · rw [empty] at member
    cases member
  · rw [fresh.outstanding] at member
    cases member

/-- A frame the scheduler may write either starts at the write offset and takes only unsent
bytes, or ends by the write offset. -/
theorem Accounted.writable_ends (accounted : s.Accounted base) {frame : WriteStreamFrame}
    (writable : Writable s frame) :
    frame.offset = s.stream.currentWriteOffset ∧ frame.len ≤ s.stream.pendingWrites.length ∨
      frame.offset + frame.len ≤ s.stream.currentWriteOffset := by
  obtain ⟨-, ⟨fresh, within, -⟩ | ⟨buffer, member, starts, within, -⟩ | ⟨-, inFlight⟩⟩ := writable
  · exact .inl ⟨fresh, within⟩
  · have ends : buffer.offset + buffer.data.length ≤ s.stream.currentWriteOffset :=
      accounted.sent.loss buffer member
    exact .inr (by omega)
  · exact .inr (accounted.inFlight frame inFlight)

theorem sendStep_eq_some {event : SendEvent} : sendStep s event = some s' ↔ sendEvent s event = some (.ok s') := by
  unfold sendStep
  split
  · rename_i next sent
    rw [sent, Option.some.injEq, Option.some.injEq, Except.ok.injEq]
  · rename_i failed
    constructor
    · intro stepped
      cases stepped
    · intro sent
      exact absurd sent (failed s')

/-- A step that keeps the count, the unsent bytes and the write offset, and keeps the send buffers
below it, with no new frame in flight, keeps the accounting. -/
theorem Accounted.of_unsent_kept (accounted : s.Accounted base)
    (count : s'.conn.sumCurStreamBufferLen = s.conn.sumCurStreamBufferLen)
    (pending : s'.stream.pendingWrites = s.stream.pendingWrites)
    (offset : s'.stream.currentWriteOffset = s.stream.currentWriteOffset)
    (sent : s'.stream.toQuicStreamLike.SentBelow)
    (inFlight : ∀ frame ∈ s'.outstanding, frame ∈ s.outstanding) : s'.Accounted base := by
  refine ⟨?_, ?_, sent, fun frame member => ?_⟩
  · rw [count, pending]
    exact accounted.buffered
  · rw [count]
    exact accounted.fits
  · rw [offset]
    exact accounted.inFlight frame (inFlight frame member)

/-- A frame put in flight ending by the new write offset, which is not below the old one. -/
theorem inFlight_append {outstanding : List WriteStreamFrame} {frame : WriteStreamFrame} {limit limit' : Nat}
    (ends : ∀ other ∈ outstanding, other.offset + other.len ≤ limit) (grows : limit ≤ limit')
    (new : frame.offset + frame.len ≤ limit') :
    ∀ other ∈ outstanding ++ [frame], other.offset + other.len ≤ limit' := by
  intro other member
  rcases List.mem_append.mp member with old | added
  · exact Nat.le_trans (ends other old) grows
  · rw [List.mem_singleton] at added
    subst added
    exact new

theorem Accounted.write (accounted : s.Accounted base) {data : List UInt8} {eof : Bool}
    (sized : data.length ≤ uint64Max) (sent : sendEvent s (.write data eof) = some (.ok s')) :
    s'.Accounted base := by
  simp only [sendEvent, Option.some.injEq] at sent
  split at sent
  · cases sent
  · rename_i stream conn written
    cases sent
    obtain ⟨pending, offset, sentBuffers, lostBuffers, added, within⟩ := writeDataToQuicStream_ok written
    have buffered := accounted.buffered
    refine ⟨?_, show conn.sumCurStreamBufferLen ≤ uint64Max by omega,
      accounted.sent.of_subset (fun _ member => sentBuffers ▸ member) (fun _ member => lostBuffers ▸ member)
        offset.ge, fun frame member => ?_⟩
    · show conn.sumCurStreamBufferLen = base + stream.pendingWrites.length
      rw [added, pending, List.length_append]
      omega
    · show frame.offset + frame.len ≤ stream.currentWriteOffset
      rw [offset]
      exact accounted.inFlight frame member

theorem Accounted.written (accounted : s.Accounted base) {frame : WriteStreamFrame} (writable : Writable s frame)
    (sent : sendEvent s (.written frame) = some (.ok s')) : s'.Accounted base := by
  simp only [sendEvent] at sent
  obtain ⟨result, updated, wrapped⟩ := Option.map_eq_some_iff.mp sent
  cases result with
  | error e => cases wrapped
  | ok result =>
    obtain ⟨stream, conn⟩ := result
    cases wrapped
    obtain ⟨newData, like', handled, rfl, counted⟩ := updateConnectionWriteStreamFrame_ok updated
    have ends := accounted.writable_ends writable
    have inside : frame.offset ≠ s.stream.currentWriteOffset →
        frame.offset + frame.len ≤ s.stream.currentWriteOffset := by
      intro apart
      rcases ends with ⟨fresh, -⟩ | ends
      · exact absurd fresh apart
      · exact ends
    have buffered := accounted.buffered
    have fits := accounted.fits
    obtain ⟨sentBelow, ⟨rfl, fresh, pending, offset⟩ | ⟨rfl, earlier, pending, offset⟩⟩ :=
      accounted.sent.handleStreamWritten inside handled
    · -- new data: the frame's bytes leave `pendingWrites` and the buffered count together
      have within : frame.len ≤ s.stream.pendingWrites.length := by
        rcases ends with ⟨-, within⟩ | ends
        · exact within
        · omega
      have subtracted : wrappingSub s.conn.sumCurStreamBufferLen frame.len =
          s.conn.sumCurStreamBufferLen - frame.len :=
        wrappingSub_of_le (by omega) (by unfold uint64Max at fits; omega)
      rw [if_pos rfl, subtracted] at counted
      refine ⟨?_, show conn.sumCurStreamBufferLen ≤ uint64Max by omega, sentBelow,
        inFlight_append accounted.inFlight ?_ ?_⟩
      · show conn.sumCurStreamBufferLen = base + like'.pendingWrites.length
        rw [counted, pending, List.length_drop]
        omega
      all_goals
        show _ ≤ like'.currentWriteOffset
        rw [offset]
        omega
    · -- a frame below the write offset leaves both
      rw [if_neg Bool.false_ne_true] at counted
      refine ⟨?_, show conn.sumCurStreamBufferLen ≤ uint64Max by omega, sentBelow,
        inFlight_append accounted.inFlight (Nat.le_of_eq offset.symm) ?_⟩
      · show conn.sumCurStreamBufferLen = base + like'.pendingWrites.length
        rw [counted, pending]
        exact buffered
      · show _ ≤ like'.currentWriteOffset
        rw [offset]
        exact inside (Nat.ne_of_lt earlier)

theorem Accounted.acked (accounted : s.Accounted base) {frame : WriteStreamFrame}
    (sent : sendEvent s (.acked frame) = some (.ok s')) : s'.Accounted base := by
  simp only [sendEvent] at sent
  obtain ⟨result, acked, wrapped⟩ := Option.map_eq_some_iff.mp sent
  cases result with
  | error e => cases wrapped
  | ok stream =>
    cases wrapped
    obtain ⟨pending, offset, lost, kept⟩ := sendAckSMHandler_ok acked
    exact accounted.of_unsent_kept rfl pending offset
      (accounted.sent.of_subset kept (fun _ member => lost ▸ member) offset.ge)
      (fun _ => List.mem_of_mem_erase)

theorem Accounted.lost (accounted : s.Accounted base) {frame : WriteStreamFrame}
    (sent : sendEvent s (.lost frame) = some (.ok s')) : s'.Accounted base := by
  simp only [sendEvent, Option.some.injEq, Except.ok.injEq] at sent
  subst sent
  obtain ⟨sentBelow, pending, offset⟩ := accounted.sent.markPacketLossWriteStreamFrame frame
  exact accounted.of_unsent_kept rfl pending offset sentBelow (fun _ => List.mem_of_mem_erase)

theorem Accounted.reset (accounted : s.Accounted base) {errorCode : Nat} {reliableSize : Option Nat}
    (sent : sendEvent s (.reset errorCode reliableSize) = some (.ok s')) : s'.Accounted base := by
  simp only [sendEvent] at sent
  obtain ⟨result, reset, wrapped⟩ := Option.map_eq_some_iff.mp sent
  cases result with
  | error e => cases wrapped
  | ok result =>
    obtain ⟨stream, conn⟩ := result
    cases wrapped
    rcases sendRstSMHandler_ok reset with ⟨rfl, rfl⟩ | ⟨resetStream, resetDone, same⟩
    · exact ⟨accounted.buffered, accounted.fits, accounted.sent, accounted.inFlight⟩
    -- the reset releases from the count exactly the unsent bytes it drops
    have released := resetQuicStream_releases_dropped resetDone
    have resetBelow :
        ({ s.stream with appErrorCodeToPeer := some errorCode } : QuicStreamState).toQuicStreamLike.SentBelow :=
      ⟨accounted.sent.retransmission, accounted.sent.loss⟩
    obtain ⟨sentBelow, shorter, offset⟩ := resetQuicStream_shrinks resetBelow resetDone
    dsimp only at released shorter offset
    have buffered := accounted.buffered
    have fits := accounted.fits
    have pending : stream.pendingWrites = resetStream.pendingWrites := congrArg QuicStreamLike.pendingWrites same
    refine ⟨?_, show conn.sumCurStreamBufferLen ≤ uint64Max by omega, by rw [same]; exact sentBelow,
      fun other member => ?_⟩
    · show conn.sumCurStreamBufferLen = base + stream.pendingWrites.length
      rw [pending]
      omega
    · show other.offset + other.len ≤ stream.currentWriteOffset
      rw [congrArg QuicStreamLike.currentWriteOffset same, offset]
      exact accounted.inFlight other member

theorem Accounted.resetAcked (accounted : s.Accounted base) {reliableSize : Option Nat}
    (sent : sendEvent s (.resetAcked reliableSize) = some (.ok s')) : s'.Accounted base := by
  simp only [sendEvent, Option.some.injEq] at sent
  split at sent
  · cases sent
  · rename_i stream acked
    cases sent
    obtain ⟨pending, offset, sentBuffers, lostBuffers⟩ := sendRstAckSMHandler_ok acked
    exact accounted.of_unsent_kept rfl pending offset
      (accounted.sent.of_subset (fun _ member => sentBuffers ▸ member) (fun _ member => lostBuffers ▸ member)
        offset.ge) (fun _ => id)

/-- Every admissible step keeps the accounting, as long as a write holds fewer than `2^64` bytes. -/
theorem Accounted.step (accounted : s.Accounted base) {event : SendEvent} (admissible : event.Admissible s)
    (sized : ∀ data eof, event = .write data eof → data.length ≤ uint64Max)
    (stepped : sendStep s event = some s') : s'.Accounted base := by
  have sent := sendStep_eq_some.mp stepped
  cases event with
  | write data eof => exact accounted.write (sized data eof rfl) sent
  | written frame => exact accounted.written admissible sent
  | acked frame => exact accounted.acked sent
  | lost frame => exact accounted.lost sent
  | reset errorCode reliableSize => exact accounted.reset sent
  | resetAcked reliableSize => exact accounted.resetAcked sent

end Sender

/-- Over every run of the send side from a new stream, with writes of fewer than `2^64` bytes, the
connection's buffered count is what it was at the start plus the stream's unsent bytes; the
subtraction `updateFlowControlOnWriteToSocket` makes for any frame of new data the scheduler may
write next does not wrap; and every frame in flight ends by the write offset. -/
theorem buffered_count_tracks_unsent_bytes {s₀ s : Sender} {events : List SendEvent} (fresh : s₀.Fresh)
    (width : s₀.conn.sumCurStreamBufferLen ≤ uint64Max)
    (sized : ∀ data eof, SendEvent.write data eof ∈ events → data.length ≤ uint64Max)
    (ran : TransitionSystem.run SendEvent.Admissible sendStep s₀ events = some s) :
    s.conn.sumCurStreamBufferLen = s₀.conn.sumCurStreamBufferLen + s.stream.pendingWrites.length ∧
      (∀ frame, Writable s frame → frame.offset = s.stream.currentWriteOffset →
        wrappingSub s.conn.sumCurStreamBufferLen frame.len = s.conn.sumCurStreamBufferLen - frame.len) ∧
      ∀ frame ∈ s.outstanding, frame.offset + frame.len ≤ s.stream.currentWriteOffset := by
  have sizedEvents :
      ∀ event ∈ events, ∀ data eof, event = SendEvent.write data eof → data.length ≤ uint64Max := by
    rintro event member data eof rfl
    exact sized data eof member
  have accounted : s.Accounted s₀.conn.sumCurStreamBufferLen :=
    TransitionSystem.run_invariant
      (fun _ _ _ accounted sizedEvent admissible stepped => accounted.step admissible sizedEvent stepped)
      events (fresh.accounted width) sizedEvents ran
  refine ⟨accounted.buffered, fun frame writable starts => ?_, accounted.inFlight⟩
  -- a frame of new data takes at most the unsent bytes, which the count holds
  have within : frame.len ≤ s.stream.pendingWrites.length := by
    rcases accounted.writable_ends writable with ⟨-, within⟩ | ends
    · exact within
    · omega
  have buffered := accounted.buffered
  have fits := accounted.fits
  exact wrappingSub_of_le (by omega) (by unfold uint64Max at fits; omega)

/-- Three bytes written to a stream with 16-byte windows and two of them sent: the count holds the
one byte left. -/
theorem buffered_count_tracks_unsent_bytes_two_sent :
    ∃ s, TransitionSystem.run SendEvent.Admissible sendStep sixteenByteWindow
        [.write [1, 2, 3] false, .written ⟨0, 0, 2, false⟩] = some s ∧
      s.conn.sumCurStreamBufferLen = sixteenByteWindow.conn.sumCurStreamBufferLen + s.stream.pendingWrites.length ∧
      s.stream.pendingWrites = [3] := by
  have ran : TransitionSystem.run SendEvent.Admissible sendStep sixteenByteWindow
      [.write [1, 2, 3] false, .written ⟨0, 0, 2, false⟩] =
      some { sixteenByteWindow with
        stream := { sixteenByteWindow.stream with
          pendingWrites := [3]
          currentWriteOffset := 2
          retransmissionBuffer := [(0, ⟨[1, 2], 0, false⟩)] }
        conn := { peerAdvertisedMaxOffset := 16, sumCurWriteOffset := 2, sumCurStreamBufferLen := 1 }
        outstanding := [⟨0, 0, 2, false⟩] } := by
    decide
  exact ⟨_, ran, (buffered_count_tracks_unsent_bytes sixteenByteWindow_fresh (by decide)
    (by simp [uint64Max]) ran).1, rfl⟩

end Mvfst
