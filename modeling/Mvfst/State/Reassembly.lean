import Mvfst.State.ReceivePath

/-!
The receive side of one stream as a system. STREAM frames cut from a byte string `S` arrive in any
order, duplicated or overlapping, between reads of any size by the application. Besides the stream
and the connection's counters, the receiver records the frames handed to the stream and what each
read returned; these two logs are not state of the source and only serve to say what the reads
deliver.

The invariant says the read buffer has its shape, holds bytes of `S`, covers every received offset
the application has not read, and that the reads so far returned `S` up to the read offset. From it:
no call fails, each read reports the end exactly when the FIN has arrived and the bytes delivered
make up `S`, and once every byte and the FIN have arrived a read of everything returns the rest of
`S`. The end is reported by every read from then on, not once.
-/

namespace Mvfst

open FlowControl

/-! ### Frames and events -/

/-- A STREAM frame carrying bytes of `S` from its offset on, with the FIN only at the end of `S`. -/
structure FrameOf (S : List UInt8) (buffer : StreamBuffer) : Prop where
  slice : buffer.data <+: S.drop buffer.offset
  inside : buffer.offset + buffer.data.length ≤ S.length
  fin : buffer.eof = true → buffer.offset + buffer.data.length = S.length

instance (S : List UInt8) (buffer : StreamBuffer) : Decidable (FrameOf S buffer) :=
  decidable_of_iff (buffer.data <+: S.drop buffer.offset ∧
      buffer.offset + buffer.data.length ≤ S.length ∧
      (buffer.eof = true → buffer.offset + buffer.data.length = S.length))
    ⟨fun ⟨slice, inside, fin⟩ => ⟨slice, inside, fin⟩,
      fun frame => ⟨frame.slice, frame.inside, frame.fin⟩⟩

/-- The frame passes both receive windows, as `updateFlowControlOnStreamData` checks them. -/
def WithinFlowControl (stream : QuicStreamState) (conn : ConnectionFlowControlState)
    (buffer : StreamBuffer) : Prop :=
  buffer.offset + buffer.data.length ≤ stream.flowControlState.advertisedMaxOffset ∧
    conn.sumMaxObservedOffset + (max stream.maxOffsetObserved (buffer.offset + buffer.data.length) -
      stream.maxOffsetObserved) ≤ conn.advertisedMaxOffset

instance (stream : QuicStreamState) (conn : ConnectionFlowControlState) (buffer : StreamBuffer) :
    Decidable (WithinFlowControl stream conn buffer) :=
  inferInstanceAs (Decidable (_ ∧ _))

/-- What happens to the stream: a STREAM frame arrives, or the application reads `amount` bytes
(0 for all there are). -/
inductive ReceiveEvent where
  | append (buffer : StreamBuffer)
  | read (amount : Nat)
  deriving DecidableEq, Repr

/-- The stream and the connection's counters, with the frames handed to the stream and the results
of the reads so far. -/
structure Receiver where
  stream : QuicStreamState
  conn : ConnectionFlowControlState
  received : List StreamBuffer := []
  reads : List (List UInt8 × Bool) := []
  deriving DecidableEq, Repr

namespace Receiver

/-- The bytes the reads returned, in order. -/
def delivered (r : Receiver) : List UInt8 := (r.reads.map Prod.fst).flatten

/-- A frame with the FIN was handed to the stream. -/
def finReceived (r : Receiver) : Bool := r.received.any fun buffer => buffer.eof

/-- Offset `position` was carried by a frame handed to the stream. -/
def ReceivedAt (r : Receiver) (position : Nat) : Prop :=
  ∃ buffer ∈ r.received, buffer.offset ≤ position ∧ position < buffer.offset + buffer.data.length

end Receiver

/-- One event: the source's call, and the logs. `none` is a failed `CHECK`. -/
def receiveEvent (r : Receiver) : ReceiveEvent → Option (Except QuicError Receiver)
  | .append buffer =>
    some (match appendDataToReadBuffer r.stream r.conn buffer with
      | .error e => .error e
      | .ok (stream, conn) => .ok { r with stream, conn, received := r.received ++ [buffer] })
  | .read amount =>
    match readDataFromQuicStream r.stream r.conn amount with
    | none => none
    | some (.error e) => some (.error e)
    | some (.ok (result, stream, conn)) =>
      some (.ok { r with stream, conn, reads := r.reads ++ [result] })

/-- The events the receiver is given: frames of `S` inside both windows, and any read. -/
def Admissible (S : List UInt8) (r : Receiver) : ReceiveEvent → Prop
  | .append buffer => FrameOf S buffer ∧ WithinFlowControl r.stream r.conn buffer
  | .read _ => True

instance (S : List UInt8) (r : Receiver) (event : ReceiveEvent) :
    Decidable (Admissible S r event) :=
  match event with
  | .append _ => inferInstanceAs (Decidable (_ ∧ _))
  | .read _ => inferInstanceAs (Decidable True)

/-- A new stream: nothing received or read and no reset, on a connection whose counters are
consistent (what the other streams have read is below what they have observed, which is within
the window). -/
structure Fresh (r : Receiver) : Prop where
  stream : r.stream.toQuicStreamLike = {}
  received : r.received = []
  reads : r.reads = []
  readBelow : r.conn.sumCurReadOffset ≤ r.conn.sumMaxObservedOffset
  window : r.conn.sumMaxObservedOffset ≤ r.conn.advertisedMaxOffset
  width : r.conn.advertisedMaxOffset ≤ uint64Max

/-- The receivers reachable from a fresh stream by events the receiver is given. -/
inductive Reachable (S : List UInt8) : Receiver → Prop where
  | init {r : Receiver} : Fresh r → Reachable S r
  | step {r r' : Receiver} {event : ReceiveEvent} :
      Reachable S r → Admissible S r event → receiveEvent r event = some (.ok r') → Reachable S r'

/-- Runs the events in order while each is one the receiver is given and succeeds. -/
def run (S : List UInt8) : Receiver → List ReceiveEvent → Option Receiver
  | r, [] => some r
  | r, event :: rest =>
    if Admissible S r event then
      match receiveEvent r event with
      | some (.ok r') => run S r' rest
      | _ => none
    else none

theorem reachable_of_run {S : List UInt8} :
    ∀ {r r' : Receiver} {events : List ReceiveEvent}, Reachable S r →
      run S r events = some r' → Reachable S r'
  | r, r', [], reachable, ran => by
    simp only [run, Option.some.injEq] at ran
    exact ran ▸ reachable
  | r, r', event :: rest, reachable, ran => by
    simp only [run] at ran
    split at ran
    · rename_i admissible
      split at ran
      · rename_i next stepped
        exact reachable_of_run (Reachable.step reachable admissible stepped) ran
      · cases ran
    · cases ran

/-! ### Logs -/

namespace Receiver

variable (r : Receiver) (stream : QuicStreamState) (conn : ConnectionFlowControlState)

@[simp] theorem delivered_read (result : List UInt8 × Bool) :
    delivered { r with stream, conn, reads := r.reads ++ [result] } = r.delivered ++ result.1 := by
  simp [delivered]

@[simp] theorem finReceived_append (buffer : StreamBuffer) :
    finReceived { r with stream, conn, received := r.received ++ [buffer] } =
      (r.finReceived || buffer.eof) := by
  simp [finReceived]

@[simp] theorem receivedAt_read (result : List UInt8 × Bool) (position : Nat) :
    ReceivedAt { r with stream, conn, reads := r.reads ++ [result] } position ↔
      r.ReceivedAt position := Iff.rfl

theorem receivedAt_append (buffer : StreamBuffer) (position : Nat) :
    ReceivedAt { r with stream, conn, received := r.received ++ [buffer] } position ↔
      r.ReceivedAt position ∨
        (buffer.offset ≤ position ∧ position < buffer.offset + buffer.data.length) := by
  simp [ReceivedAt, or_and_right, exists_or]

end Receiver

/-! ### The invariant -/

/-- What holds of every reachable receiver. -/
structure Invariant (S : List UInt8) (r : Receiver) : Prop where
  shape : ReadBufferShape r.stream.currentReadOffset r.stream.readBuffer
  slices : SlicesOf S r.stream.readBuffer
  delivered : r.delivered = S.take r.stream.currentReadOffset
  final : r.stream.finalReadOffset = if r.finReceived then some S.length else none
  observed : r.stream.maxOffsetObserved ≤ S.length
  finObserved : r.finReceived = true → r.stream.maxOffsetObserved = S.length
  /-- The buffer holds nothing beyond the largest offset observed. -/
  below : ∀ position, Covers r.stream.readBuffer position → position < r.stream.maxOffsetObserved
  /-- The read offset is at most the largest offset observed, or one past the final size once
  the end was reported. -/
  reading : r.stream.currentReadOffset ≤ r.stream.maxOffsetObserved ∨
    (r.finReceived = true ∧ r.stream.currentReadOffset = S.length + 1)
  /-- Every received offset was read or is held by the buffer. -/
  covered : ∀ position, r.ReceivedAt position →
    position < r.stream.currentReadOffset ∨ Covers r.stream.readBuffer position
  noReset : r.stream.reliableSizeFromPeer = none
  /-- The bytes observed and not read are accounted in the connection's sums. -/
  accounted : r.conn.sumCurReadOffset + r.stream.maxOffsetObserved ≤
    r.conn.sumMaxObservedOffset + r.stream.currentReadOffset
  window : r.conn.sumMaxObservedOffset ≤ r.conn.advertisedMaxOffset
  width : r.conn.advertisedMaxOffset ≤ uint64Max

section Buffer

variable {readBuffer : List StreamBuffer}

/-- Entries of a buffer covering only offsets below `bound` end at or before `bound`. -/
theorem end_le_of_covers {bound : Nat} (nonempty : ∀ entry ∈ readBuffer, 0 < entry.data.length)
    (below : ∀ position, Covers readBuffer position → position < bound) :
    ∀ entry ∈ readBuffer, entry.offset + entry.data.length ≤ bound := by
  intro entry mem
  have positive := nonempty entry mem
  have last := below (entry.offset + entry.data.length - 1) ⟨entry, mem, by omega, by omega⟩
  omega

/-- A buffer of the invariant's shape at `lo` covering nothing from `lo` on is empty. -/
theorem nil_of_covers_below {lo : Nat} (shape : ReadBufferShape lo readBuffer)
    (below : ∀ position, Covers readBuffer position → position < lo) : readBuffer = [] := by
  cases readBuffer with
  | nil => rfl
  | cons entry rest =>
    have starts := shape.above entry List.mem_cons_self
    have positive := shape.nonempty entry List.mem_cons_self
    have first := below entry.offset ⟨entry, List.mem_cons_self, Nat.le_refl _, by omega⟩
    omega

/-- The bytes of `S` before `n`, followed by a slice of `S` at `n`, are the bytes of `S` before
the slice's end. -/
theorem take_append_of_prefix {S a : List UInt8} {n : Nat} (slice : a <+: S.drop n) :
    S.take n ++ a = S.take (n + a.length) := by
  rw [List.take_add, ← List.prefix_iff_eq_take.mp slice]

/-- When the buffer covers every offset from the read offset to the end of `S`, a read of
everything returns the rest of `S`. -/
theorem takeFront_complete {S : List UInt8} {currentReadOffset : Nat}
    (shape : ReadBufferShape currentReadOffset readBuffer) (slices : SlicesOf S readBuffer)
    (inside : ∀ entry ∈ readBuffer, entry.offset + entry.data.length ≤ S.length)
    (complete : ∀ position, currentReadOffset ≤ position → position < S.length →
      Covers readBuffer position)
    (short : currentReadOffset < S.length) :
    (takeFront currentReadOffset 0 readBuffer).1 = S.drop currentReadOffset := by
  obtain ⟨holder, held, low, high⟩ := complete currentReadOffset (Nat.le_refl _) short
  cases readBuffer with
  | nil => simp at held
  | cons first rest =>
    have later := (List.pairwise_cons.mp shape.apart).1
    have first_above := shape.above first List.mem_cons_self
    -- the entry holding the read offset is the first: a later one starts after the first ends
    have first_at : first.offset = currentReadOffset := by
      rcases List.mem_cons.mp held with rfl | held
      · omega
      · have := later holder held
        omega
    -- the first entry reaches the end of `S`: the offset where it ends would be held by a later
    -- entry, which starts beyond it
    have reaches : S.length ≤ first.offset + first.data.length := by
      refine Nat.le_of_not_lt fun ends => ?_
      obtain ⟨next, next_held, next_low, next_high⟩ :=
        complete (first.offset + first.data.length) (by omega) ends
      rcases List.mem_cons.mp next_held with rfl | next_held
      · omega
      · have := later next next_held
        omega
    have fits := inside first List.mem_cons_self
    have slice := slices first List.mem_cons_self
    rw [first_at] at slice
    simp only [takeFront, first_at, ↓reduceIte, Nat.min_self, List.take_length]
    exact slice.eq_of_length (by simp only [List.length_drop]; omega)

end Buffer

namespace Invariant

variable {S : List UInt8} {r : Receiver}

/-- Entries end at or before the largest offset observed. -/
theorem entries_below (inv : Invariant S r) :
    ∀ entry ∈ r.stream.readBuffer,
      entry.offset + entry.data.length ≤ r.stream.maxOffsetObserved :=
  end_le_of_covers inv.shape.nonempty inv.below

/-- Once the read offset has reached the end of `S`, the buffer is empty. -/
theorem readBuffer_nil (inv : Invariant S r) (past : S.length ≤ r.stream.currentReadOffset) :
    r.stream.readBuffer = [] :=
  nil_of_covers_below inv.shape fun position held => by
    have := inv.below position held
    have := inv.observed
    omega

end Invariant

/-- A fresh receiver satisfies the invariant. -/
theorem invariant_fresh {S : List UInt8} {r : Receiver} (fresh : Fresh r) : Invariant S r := by
  obtain ⟨⟨like, id, flowControlState, recvState⟩, conn, received, reads⟩ := r
  obtain ⟨same, noFrames, noReads, readBelow, window, width⟩ := fresh
  simp only at same noFrames noReads
  subst same noFrames noReads
  refine ⟨readBufferShape_nil 0, by simp [SlicesOf], by simp [Receiver.delivered],
    by simp [Receiver.finReceived], Nat.zero_le _, by simp [Receiver.finReceived], by simp,
    .inl (Nat.le_refl 0), by simp [Receiver.ReceivedAt], rfl, by simpa using readBelow, window,
    width⟩

/-! ### A frame arrives -/

section Append

variable {S : List UInt8} {r : Receiver} {buffer : StreamBuffer}

/-- Within both windows the visitor adds the growth of the largest offset observed to the
connection's sum. -/
theorem streamDataVisitor_within (within : WithinFlowControl r.stream r.conn buffer)
    (width : r.conn.advertisedMaxOffset ≤ uint64Max) :
    streamDataVisitor r.stream r.stream.maxOffsetObserved (buffer.offset + buffer.data.length)
        r.conn =
      { r.conn with
        sumMaxObservedOffset := r.conn.sumMaxObservedOffset +
          (max r.stream.maxOffsetObserved (buffer.offset + buffer.data.length) -
            r.stream.maxOffsetObserved) } := by
  unfold streamDataVisitor
  rw [updateFlowControlOnStreamData_ok _ _ within.1 within.2 width]

/-- A frame of `S` that carries bytes or the FIN is stored: the stream learns the final size from
a FIN, raises its largest offset observed, and its buffer covers the frame's unread bytes in
addition. -/
theorem appendDataToReadBuffer_frame (inv : Invariant S r) (frame : FrameOf S buffer)
    (within : WithinFlowControl r.stream r.conn buffer)
    (relevant : buffer.eof = true ∨ 0 < buffer.data.length) :
    ∃ readBuffer,
      appendDataToReadBuffer r.stream r.conn buffer =
        .ok ({ r.stream with
            finalReadOffset :=
              (if buffer.eof then some (buffer.offset + buffer.data.length) else none).or
                r.stream.finalReadOffset
            maxOffsetObserved :=
              max r.stream.maxOffsetObserved (buffer.offset + buffer.data.length)
            readBuffer },
          { r.conn with
            sumMaxObservedOffset := r.conn.sumMaxObservedOffset +
              (max r.stream.maxOffsetObserved (buffer.offset + buffer.data.length) -
                r.stream.maxOffsetObserved) }) ∧
      ReadBufferShape r.stream.currentReadOffset readBuffer ∧
      (∀ position, Covers readBuffer position ↔
        Covers r.stream.readBuffer position ∨
          (r.stream.currentReadOffset ≤ position ∧ buffer.offset ≤ position ∧
            position < buffer.offset + buffer.data.length)) ∧
      SlicesOf S readBuffer := by
  -- a frame of `S` agrees with the final size `S.length`
  have known : r.stream.finalReadOffset = none ∨ r.stream.finalReadOffset = some S.length := by
    rw [inv.final]
    split
    · exact .inr rfl
    · exact .inl rfl
  have fin : (if buffer.eof then some (buffer.offset + buffer.data.length) else none) = none ∨
      (if buffer.eof then some (buffer.offset + buffer.data.length) else none) = some S.length := by
    cases eof : buffer.eof
    · exact .inl rfl
    · exact .inr (by simp [frame.fin eof])
  have passes := checkFinalReadOffset_consistent known inv.observed frame.inside fin
  obtain ⟨readBuffer, stored, shape, covers, slices⟩ :=
    appendDataToReadBufferCommon_spec r.stream.toQuicStreamLike r.conn buffer
      (streamDataVisitor r.stream) inv.shape passes relevant
  refine ⟨readBuffer, ?_, shape, covers, slices S inv.slices frame.slice⟩
  unfold appendDataToReadBuffer
  rw [stored, streamDataVisitor_within within inv.width]

/-- A frame that carries neither bytes nor the FIN changes nothing. -/
theorem appendDataToReadBuffer_empty (empty : buffer.eof = false ∧ buffer.data.length = 0) :
    appendDataToReadBuffer r.stream r.conn buffer = .ok (r.stream, r.conn) := by
  unfold appendDataToReadBuffer appendDataToReadBufferCommon
  rw [if_pos empty]

/-- The final size after a frame of `S`, in the invariant's form. -/
theorem finalReadOffset_frame (inv : Invariant S r) (frame : FrameOf S buffer) :
    (if buffer.eof then some (buffer.offset + buffer.data.length) else none).or
        r.stream.finalReadOffset =
      if (r.finReceived || buffer.eof) then some S.length else none := by
  cases eof : buffer.eof
  · simp only [Bool.false_eq_true, if_false, Option.none_or, Bool.or_false]
    exact inv.final
  · simp [frame.fin eof]

/-- A frame of `S` inside both windows succeeds and keeps the invariant. -/
theorem append_keeps (inv : Invariant S r) (frame : FrameOf S buffer)
    (within : WithinFlowControl r.stream r.conn buffer) :
    ∃ r', receiveEvent r (.append buffer) = some (.ok r') ∧ Invariant S r' := by
  by_cases empty : buffer.eof = false ∧ buffer.data.length = 0
  · -- nothing is stored, and the frame covers no offset and has no FIN
    refine ⟨{ r with received := r.received ++ [buffer] }, ?_, ?_⟩
    · simp only [receiveEvent, appendDataToReadBuffer_empty empty]
    · have no_fin : (r.finReceived || buffer.eof) = r.finReceived := by simp [empty.1]
      refine { inv with
        final := ?_
        finObserved := ?_
        reading := ?_
        covered := ?_ }
      · simpa only [Receiver.finReceived_append, no_fin] using inv.final
      · simpa only [Receiver.finReceived_append, no_fin] using inv.finObserved
      · simpa only [Receiver.finReceived_append, no_fin] using inv.reading
      · intro position received
        rcases (Receiver.receivedAt_append r _ _ buffer position).mp received with old | ⟨low, high⟩
        · exact inv.covered position old
        · omega
  · have relevant : buffer.eof = true ∨ 0 < buffer.data.length := by
      cases eof : buffer.eof
      · exact .inr (Nat.pos_of_ne_zero fun zero => empty ⟨eof, zero⟩)
      · exact .inl rfl
    obtain ⟨readBuffer, appended, shape, covers, slices⟩ :=
      appendDataToReadBuffer_frame inv frame within relevant
    simp only [receiveEvent, appended, Option.some.injEq, Except.ok.injEq, exists_eq_left']
    have end_inside := frame.inside
    have observed := inv.observed
    refine ⟨shape, slices, inv.delivered, ?_, ?_, ?_, ?_, ?_, ?_, inv.noReset, ?_, within.2,
      inv.width⟩ <;> dsimp only
    · rw [Receiver.finReceived_append]
      exact finalReadOffset_frame inv frame
    · exact max_le observed end_inside
    · -- the largest offset observed is the end of `S` once the FIN arrived
      simp only [Receiver.finReceived_append, Bool.or_eq_true]
      rintro (fin | fin)
      · have := inv.finObserved fin
        omega
      · have := frame.fin fin
        omega
    · intro position held
      rcases (covers position).mp held with old | ⟨_, _, high⟩
      · have := inv.below position old
        omega
      · omega
    · simp only [Receiver.finReceived_append, Bool.or_eq_true]
      rcases inv.reading with reading | ⟨fin, past⟩
      · exact .inl (Nat.le_trans reading (Nat.le_max_left _ _))
      · exact .inr ⟨.inl fin, past⟩
    · intro position received
      rcases (Receiver.receivedAt_append r _ _ buffer position).mp received with old | ⟨low, high⟩
      · rcases inv.covered position old with read | held
        · exact .inl read
        · exact .inr ((covers position).mpr (.inl held))
      · by_cases read : position < r.stream.currentReadOffset
        · exact .inl read
        · exact .inr ((covers position).mpr (.inr ⟨by omega, low, high⟩))
    · have := inv.accounted
      omega

end Append

/-! ### The application reads -/

section Read

variable {S : List UInt8} {r : Receiver}

namespace Invariant

/-- Before the read offset passes the end of a finished stream, it is at most the largest offset
observed. -/
theorem readOffset_le (inv : Invariant S r)
    (unfinished : ¬(r.finReceived = true ∧ S.length ≤ r.stream.currentReadOffset)) :
    r.stream.currentReadOffset ≤ r.stream.maxOffsetObserved := by
  rcases inv.reading with reading | ⟨fin, past⟩
  · exact reading
  · exact absurd ⟨fin, by omega⟩ unfinished

/-- Before that, a known final size is still ahead of the read offset. -/
theorem before_final (inv : Invariant S r)
    (unfinished : ¬(r.finReceived = true ∧ S.length ≤ r.stream.currentReadOffset)) :
    ∀ finalSize, r.stream.finalReadOffset = some finalSize →
      r.stream.currentReadOffset < finalSize := by
  intro finalSize final
  rw [inv.final] at final
  split at final
  · rename_i fin
    cases final
    exact Nat.lt_of_not_le fun past => unfinished ⟨fin, past⟩
  · cases final

/-- The stream has ended at `readOffset` exactly when the FIN arrived and `readOffset` is the end
of `S`. -/
theorem ended_iff (inv : Invariant S r) (readOffset : Nat) :
    r.stream.finalReadOffset = some readOffset ↔
      r.finReceived = true ∧ readOffset = S.length := by
  rw [inv.final]
  split
  · rename_i fin
    simp only [Option.some.injEq, fin, true_and]
    exact eq_comm
  · rename_i fin
    simp only [reduceCtorEq, fin, false_and]

end Invariant

/-- What a read from a receiver in the invariant does: it succeeds, keeps the invariant, and
reports the end exactly when the FIN has arrived and the bytes delivered with it make up `S`. -/
def ReadKeeps (S : List UInt8) (r : Receiver) (amount : Nat) : Prop :=
  ∃ data eof stream conn,
    readDataFromQuicStream r.stream r.conn amount = some (.ok ((data, eof), stream, conn)) ∧
      Invariant S { r with stream, conn, reads := r.reads ++ [(data, eof)] } ∧
      (eof = true ↔ r.finReceived = true ∧ r.delivered ++ data = S)

/-- Past the end of a finished stream, a read returns no bytes and the end. -/
theorem read_finished (inv : Invariant S r) (fin : r.finReceived = true)
    (past : S.length ≤ r.stream.currentReadOffset) (amount : Nat) : ReadKeeps S r amount := by
  have final : r.stream.finalReadOffset = some S.length := by
    rw [inv.final, fin]
    rfl
  have empty := inv.readBuffer_nil past
  have whole : r.delivered = S := by
    rw [inv.delivered, List.take_of_length_le past]
  refine ⟨[], true, _, r.conn,
    readDataFromQuicStream_of_finished r.stream r.conn amount final past, ?_, ?_⟩
  · split
    · -- the first read at the end moves the read offset one past it
      rename_i at_end
      refine ⟨?_, inv.slices, ?_, inv.final, inv.observed, inv.finObserved, inv.below,
        .inr ⟨fin, by simp only; omega⟩, ?_, inv.noReset, ?_, inv.window, inv.width⟩ <;>
        dsimp only
      · rw [empty]
        exact readBufferShape_nil _
      · rw [Receiver.delivered_read, whole, List.append_nil,
          List.take_of_length_le (by omega)]
      · intro position received
        rcases inv.covered position received with read | held
        · exact .inl (by omega)
        · exact .inr held
      · have := inv.accounted
        omega
    · refine { inv with delivered := ?_ }
      rw [Receiver.delivered_read, List.append_nil]
      exact inv.delivered
  · exact ⟨fun _ => ⟨fin, by rw [List.append_nil, whole]⟩, fun _ => rfl⟩

/-- Before the end, a read returns what `takeFront` takes, accounts it in the connection's read
sum, and reports the end when it reaches the final size. -/
theorem readDataFromQuicStream_reading (inv : Invariant S r)
    (unfinished : ¬(r.finReceived = true ∧ S.length ≤ r.stream.currentReadOffset))
    (amount : Nat) :
    readDataFromQuicStream r.stream r.conn amount =
      let taken := takeFront r.stream.currentReadOffset amount r.stream.readBuffer
      let readOffset := r.stream.currentReadOffset + taken.1.length
      let eof := decide (r.stream.finalReadOffset = some readOffset)
      some (.ok ((taken.1, eof),
        { r.stream with
          readBuffer := taken.2,
          currentReadOffset := if eof then readOffset + 1 else readOffset },
        { r.conn with sumCurReadOffset := r.conn.sumCurReadOffset + taken.1.length })) := by
  have within := (takeFront_le r.stream.currentReadOffset amount inv.entries_below
    (inv.readOffset_le unfinished)).1
  -- what was observed and not read is within the connection's window
  have fits : r.conn.sumCurReadOffset +
      (takeFront r.stream.currentReadOffset amount r.stream.readBuffer).1.length ≤ uint64Max := by
    have := inv.accounted
    have := inv.window
    have := inv.width
    omega
  exact readDataFromQuicStream_of_reading r.stream r.conn amount inv.noReset inv.shape
    (inv.before_final unfinished) fits

/-- Before the end, a read keeps the invariant: the bytes it returns are the next ones of `S`. -/
theorem read_reading (inv : Invariant S r)
    (unfinished : ¬(r.finReceived = true ∧ S.length ≤ r.stream.currentReadOffset))
    (amount : Nat) : ReadKeeps S r amount := by
  have reading := inv.readOffset_le unfinished
  have read := readDataFromQuicStream_reading inv unfinished amount
  have shape := takeFront_shape r.stream.currentReadOffset amount inv.shape
  have covers := takeFront_covers r.stream.currentReadOffset amount inv.shape
  have slices := takeFront_slices r.stream.currentReadOffset amount inv.slices
  have data_slice := takeFront_data r.stream.currentReadOffset amount inv.slices
  have bounded := (takeFront_le r.stream.currentReadOffset amount inv.entries_below reading).1
  generalize takeFront r.stream.currentReadOffset amount r.stream.readBuffer = taken
    at read shape covers slices data_slice bounded
  obtain ⟨data, readBuffer⟩ := taken
  dsimp only at read shape covers slices data_slice bounded
  have delivered : r.delivered ++ data = S.take (r.stream.currentReadOffset + data.length) := by
    rw [inv.delivered]
    exact take_append_of_prefix data_slice
  refine ⟨_, _, _, _, read, ?_, ?_⟩
  · have observed := inv.observed
    by_cases ended : r.stream.finalReadOffset = some (r.stream.currentReadOffset + data.length)
    · -- the read reached the final size: nothing is left and the offset moves one past it
      obtain ⟨fin, at_end⟩ := (inv.ended_iff _).mp ended
      have empty : readBuffer = [] := nil_of_covers_below shape fun position held => by
        have := inv.below position ((covers position).mp held).1
        omega
      rw [if_pos (decide_eq_true ended)]
      refine ⟨?_, slices, ?_, inv.final, observed, inv.finObserved, ?_, .inr ⟨fin, ?_⟩, ?_,
        inv.noReset, ?_, inv.window, inv.width⟩ <;> dsimp only
      · rw [empty]
        exact readBufferShape_nil _
      · rw [Receiver.delivered_read, delivered, List.take_of_length_le (by omega),
          List.take_of_length_le (by omega)]
      · intro position held
        exact inv.below position ((covers position).mp held).1
      · omega
      · intro position received
        rcases inv.covered position received with read | held
        · exact .inl (by omega)
        · have := inv.below position held
          exact .inl (by omega)
      · have := inv.accounted
        omega
    · rw [if_neg (by simpa only [decide_eq_true_eq] using ended)]
      refine ⟨shape, slices, ?_, inv.final, observed, inv.finObserved, ?_, .inl bounded, ?_,
        inv.noReset, ?_, inv.window, inv.width⟩ <;> dsimp only
      · rw [Receiver.delivered_read]
        exact delivered
      · intro position held
        exact inv.below position ((covers position).mp held).1
      · intro position received
        rcases inv.covered position received with read | held
        · exact .inl (by omega)
        · by_cases read : position < r.stream.currentReadOffset + data.length
          · exact .inl read
          · exact .inr ((covers position).mpr ⟨held, by omega⟩)
      · have := inv.accounted
        omega
  · -- the end is reported when the final size is reached, that is when all of `S` is delivered
    rw [decide_eq_true_iff, inv.ended_iff, delivered, List.take_eq_self_iff]  
    have := inv.observed
    constructor
    · rintro ⟨fin, at_end⟩
      exact ⟨fin, by omega⟩
    · rintro ⟨fin, whole⟩
      exact ⟨fin, by omega⟩

/-- Every read from a receiver in the invariant succeeds and keeps it. -/
theorem read_keeps (inv : Invariant S r) (amount : Nat) : ReadKeeps S r amount := by
  by_cases finished : r.finReceived = true ∧ S.length ≤ r.stream.currentReadOffset
  · exact read_finished inv finished.1 finished.2 amount
  · exact read_reading inv finished amount

/-- Once every offset of `S` was received and the FIN arrived, a read of everything returns the
rest of `S` and reports the end. -/
theorem read_complete (inv : Invariant S r) (fin : r.finReceived = true)
    (complete : ∀ position < S.length, r.ReceivedAt position) :
    ∃ stream conn, readDataFromQuicStream r.stream r.conn 0 =
      some (.ok ((S.drop r.delivered.length, true), stream, conn)) := by
  by_cases past : S.length ≤ r.stream.currentReadOffset
  · have final : r.stream.finalReadOffset = some S.length := by
      rw [inv.final, fin]
      rfl
    rw [inv.delivered, List.take_of_length_le past, List.drop_length]
    exact ⟨_, _, readDataFromQuicStream_of_finished r.stream r.conn 0 final past⟩
  · have unfinished : ¬(r.finReceived = true ∧ S.length ≤ r.stream.currentReadOffset) :=
      fun finished => past finished.2
    have rest := takeFront_complete inv.shape inv.slices
      (fun entry mem => Nat.le_trans (inv.entries_below entry mem) inv.observed)
      (fun position above inside => by
        rcases inv.covered position (complete position inside) with read | held
        · omega
        · exact held)
      (Nat.lt_of_not_le past)
    have ended : r.stream.finalReadOffset =
        some (r.stream.currentReadOffset + (S.drop r.stream.currentReadOffset).length) := by
      rw [(inv.ended_iff _)]
      exact ⟨fin, by simp only [List.length_drop]; omega⟩
    rw [readDataFromQuicStream_reading inv unfinished 0, inv.delivered,
      List.length_take_of_le (by omega)]
    simp only [rest, ended, decide_true]
    exact ⟨_, _, rfl⟩

end Read

/-! ### Runs -/

section Runs

variable {S : List UInt8} {r : Receiver}

/-- Every event the receiver is given succeeds and keeps the invariant. -/
theorem step_keeps (inv : Invariant S r) {event : ReceiveEvent}
    (admissible : Admissible S r event) :
    ∃ r', receiveEvent r event = some (.ok r') ∧ Invariant S r' := by
  cases event with
  | append buffer => exact append_keeps inv admissible.1 admissible.2
  | read amount =>
    obtain ⟨data, eof, stream, conn, read, kept, -⟩ := read_keeps inv amount
    exact ⟨{ r with stream, conn, reads := r.reads ++ [(data, eof)] },
      by simp only [receiveEvent, read], kept⟩

/-- Every reachable receiver satisfies the invariant. -/
theorem invariant_of_reachable (reachable : Reachable S r) : Invariant S r := by
  induction reachable with
  | init fresh => exact invariant_fresh fresh
  | step _ admissible stepped inv =>
    obtain ⟨r', stepped', kept⟩ := step_keeps inv admissible
    rw [stepped, Option.some.injEq, Except.ok.injEq] at stepped'
    exact stepped' ▸ kept

/-- What the receive path guarantees in a reachable state. -/
structure Reassembles (S : List UInt8) (r : Receiver) : Prop where
  /-- No event the receiver is given fails. -/
  succeeds : ∀ event, Admissible S r event → ∃ r', receiveEvent r event = some (.ok r')
  /-- The reads so far returned `S` up to the read offset, in order. -/
  inOrder : r.delivered = S.take r.stream.currentReadOffset
  shape : ReadBufferShape r.stream.currentReadOffset r.stream.readBuffer
  /-- A read reports the end exactly when the FIN has arrived and the bytes delivered with it make
  up `S`; every read from then on reports it. -/
  endReported : ∀ amount data eof stream conn,
    readDataFromQuicStream r.stream r.conn amount = some (.ok ((data, eof), stream, conn)) →
      (eof = true ↔ r.finReceived = true ∧ r.delivered ++ data = S)
  /-- Once every offset of `S` and the FIN have arrived, a read of everything returns the rest of
  `S` and the end. -/
  complete : r.finReceived = true → (∀ position < S.length, r.ReceivedAt position) →
    ∃ stream conn, readDataFromQuicStream r.stream r.conn 0 =
      some (.ok ((S.drop r.delivered.length, true), stream, conn))

theorem stream_reassembly (S : List UInt8) (r : Receiver) (reachable : Reachable S r) :
    Reassembles S r := by
  have inv := invariant_of_reachable reachable
  refine ⟨fun event admissible => ?_, inv.delivered, inv.shape, ?_, read_complete inv⟩
  · obtain ⟨r', stepped, -⟩ := step_keeps inv admissible
    exact ⟨r', stepped⟩
  · -- the read is the one `read_keeps` describes
    intro amount data eof stream conn read
    obtain ⟨data', eof', stream', conn', read', -, reports⟩ := read_keeps inv amount
    rw [read, Option.some.injEq, Except.ok.injEq, Prod.mk.injEq, Prod.mk.injEq] at read'
    obtain ⟨⟨rfl, rfl⟩, -⟩ := read'
    exact reports

end Runs

/-- A fresh stream with a window of 16 bytes on a fresh connection with the same window. -/
def sevenFresh : Receiver where
  stream := { id := 0, flowControlState := { advertisedMaxOffset := 16 } }
  conn := { advertisedMaxOffset := 16 }

theorem sevenFresh_fresh : Fresh sevenFresh :=
  ⟨rfl, rfl, rfl, by decide, by decide, by decide⟩

/-- The stream `[1, 2, 3]` sent as two frames, the one with the FIN first, then read one byte at a
time twice: the receiver the run reaches has delivered `[1, 2]` and reassembles the stream. -/
theorem stream_reassembly_out_of_order :
    ∃ r, run [1, 2, 3] sevenFresh
        [.append ⟨[3], 2, true⟩, .append ⟨[1, 2], 0, false⟩, .read 1, .read 1] = some r ∧
      r.reads = [([1], false), ([2], false)] ∧ Reassembles [1, 2, 3] r := by
  obtain ⟨r, ran⟩ : ∃ r, run [1, 2, 3] sevenFresh
      [.append ⟨[3], 2, true⟩, .append ⟨[1, 2], 0, false⟩, .read 1, .read 1] = some r := ⟨_, rfl⟩
  have reads : r.reads = [([1], false), ([2], false)] := by
    have delivered := congrArg (Option.map Receiver.reads) ran
    rw [Option.map_some] at delivered
    exact Option.some.inj (delivered.symm.trans (by decide))
  exact ⟨r, ran, reads, stream_reassembly _ r (reachable_of_run (Reachable.init sevenFresh_fresh) ran)⟩

/-- The stream `[7]` sent in one frame with the FIN, then read twice: both reads report the end. -/
theorem eof_reported_twice :
    ∃ r, Reachable [7] r ∧ r.reads = [([7], true), ([], true)] := by
  have ran : (run [7] sevenFresh [.append ⟨[7], 0, true⟩, .read 0, .read 0]).map Receiver.reads =
      some [([7], true), ([], true)] := by
    decide
  cases reached : run [7] sevenFresh [.append ⟨[7], 0, true⟩, .read 0, .read 0] with
  | none => simp [reached] at ran
  | some r =>
    rw [reached, Option.map_some, Option.some.injEq] at ran
    exact ⟨r, reachable_of_run (Reachable.init sevenFresh_fresh) reached, ran⟩

end Mvfst
