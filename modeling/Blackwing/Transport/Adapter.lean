import Blackwing.Lib.Run
import Blackwing.Protocol.Codec

/-!
# Frames on a QUIC stream

`bw-transport/src/adapter.rs`: frames are written to a stream one after the other and
read back by their headers. `recv_frame` reads a header, resizes the buffer it was
lent, reads the payload behind the header and decodes the whole.

A receive stream is the bytes that will still arrive and the way it ends.
`bytemuck` needs 8-byte alignment, so the addresses of the two buffers of a call are
among its inputs.

* `recvFrame`: the body that `QuicProtocolAdapter` and `QuicRecvAdapter` share.
* `recvFrame_whole`, `recvFrame_cut`: the two cases of one call.
* `stream_framing`: every list of well-formed frames is read back, and a stream that is
  cut yields the frames before the cut and then `Closed`.
-/

namespace Blackwing.Transport

open Protocol

/-- `quinn::ReadError`, of which the adapter reads nothing. -/
inductive ReadError where
  | reset (code : UInt64)
  | connectionLost
  | closedStream
deriving DecidableEq

/-- `quinn::ReadExactError`. -/
inductive ReadExactError where
  | finishedEarly (read : Nat)
  | readError (err : ReadError)
deriving DecidableEq

/-- `AdapterError`, without the variant of `send_frame`. -/
inductive AdapterError where
  | read (err : ReadError)
  | protocol (err : ProtocolError)
  | closed
deriving DecidableEq

/-- The conversion of the errors of `read_exact`. -/
def AdapterError.ofReadExact : ReadExactError → AdapterError
  | .finishedEarly _ => .closed
  | .readError err => .read err

/-- `RecvStream`: the bytes that still arrive, and the error after them, if the peer did not finish
the stream. -/
structure RecvStream where
  bytes : List UInt8
  failure : Option ReadError
deriving DecidableEq

/-- The error of a read that runs into the end of the stream. -/
def RecvStream.endError (s : RecvStream) : ReadExactError :=
  match s.failure with
  | none => .finishedEarly s.bytes.length
  | some err => .readError err

/-- A stream that is read from, and the buffer lent to the call. -/
structure Receiver where
  stream : RecvStream
  buffer : List UInt8
deriving DecidableEq

/-- `RecvStream::read_exact` into a slice. What it cannot fill it leaves as it was. -/
def RecvStream.readExact (region : List UInt8) (s : RecvStream) :
    Outcome ReadExactError Unit × List UInt8 × RecvStream :=
  if region.length ≤ s.bytes.length then
    (.ok (), s.bytes.take region.length, { s with bytes := s.bytes.drop region.length })
  else (.err s.endError, s.bytes ++ region.drop s.bytes.length, { s with bytes := [] })

namespace Receiver

/-- The read of the header into a new buffer. -/
def readHeader : Call Receiver AdapterError (List UInt8) := fun r =>
  let (o, headerBuf, stream) := r.stream.readExact (List.replicate headerSize 0)
  (o.mapErr .ofReadExact >>= fun _ => .ok headerBuf, { r with stream })

/-- The read of the payload into the lent buffer, behind the header. A payload of no bytes is not
read. -/
def readPayload (header : PacketHeader) : Call Receiver AdapterError Unit := fun r =>
  if header.payloadLength > 0 then
    let (o, region, stream) := r.stream.readExact (r.buffer.drop headerSize)
    (o.mapErr .ofReadExact, ⟨stream, r.buffer.take headerSize ++ region⟩)
  else (.ok (), r)

/-- `recv_frame`, with the addresses of the header buffer and of the lent buffer. -/
def recvFrame (headerAddr bufferAddr : Nat) : Call Receiver AdapterError OwnedProtocolFrame := do
  let headerBuf ← readHeader
  let header ← Call.ofOutcome ((PacketHeader.tryFromBytes headerAddr headerBuf).mapErr .protocol)
  let totalSize := headerSize + header.payloadLength.toNat
  Call.update fun r => { r with
    buffer := headerBuf ++ (resize totalSize r.buffer).drop headerSize }
  readPayload header
  let r ← Call.getState
  Call.ofOutcome ((decodeFrame bufferAddr r.buffer).mapErr .protocol)

end Receiver

/-- What a call of `recv_frame` is given: the buffer with whatever it contains, and where the two
buffers lie in memory. -/
structure RecvCall where
  buffer : List UInt8
  headerAddr : Nat
  bufferAddr : Nat
deriving DecidableEq

/-- Both buffers are aligned for a header. -/
def RecvCall.Aligned (call : RecvCall) : Prop := call.headerAddr % 8 = 0 ∧ call.bufferAddr % 8 = 0

instance (call : RecvCall) : Decidable call.Aligned := inferInstanceAs (Decidable (_ ∧ _))

/-- `QuicProtocolAdapter`: what was written to the send stream, and the receive stream. -/
structure QuicProtocolAdapter where
  send : List UInt8
  recv : RecvStream

/-- `QuicRecvAdapter`. -/
structure QuicRecvAdapter where
  recv : RecvStream

/-- `QuicProtocolAdapter::send_frame`, on a stream that takes every write. -/
def QuicProtocolAdapter.sendFrame (a : QuicProtocolAdapter) (frame : OwnedProtocolFrame) :
    QuicProtocolAdapter :=
  { a with send := a.send ++ encodeFrame frame }

/-- `QuicProtocolAdapter::recv_frame`. -/
def QuicProtocolAdapter.recvFrame (a : QuicProtocolAdapter) (call : RecvCall) :
    Outcome AdapterError OwnedProtocolFrame × QuicProtocolAdapter :=
  let (r, receiver) := Receiver.recvFrame call.headerAddr call.bufferAddr ⟨a.recv, call.buffer⟩
  (r, { a with recv := receiver.stream })

/-- `QuicRecvAdapter::recv_frame`. -/
def QuicRecvAdapter.recvFrame (a : QuicRecvAdapter) (call : RecvCall) :
    Outcome AdapterError OwnedProtocolFrame × QuicRecvAdapter :=
  let (r, receiver) := Receiver.recvFrame call.headerAddr call.bufferAddr ⟨a.recv, call.buffer⟩
  (r, { a with recv := receiver.stream })

/-- The frames that lie completely within the first `n` bytes. -/
def framesBefore (n : Nat) : List OwnedProtocolFrame → List OwnedProtocolFrame
  | [] => []
  | f :: fs =>
    if (encodeFrame f).length ≤ n then f :: framesBefore (n - (encodeFrame f).length) fs else []

/-- Successive calls read the frames back: all of them from a stream that begins with them, and
those before the cut, and then `Closed`, from a stream that is cut. -/
structure Framed {α : Type} (recv : α → RecvStream)
    (recvFrame : α → RecvCall → Outcome AdapterError OwnedProtocolFrame × α)
    (frames : List OwnedProtocolFrame) : Prop where
  whole : ∀ (a : α) (rest : List UInt8) (calls : List RecvCall),
    (recv a).bytes = frames.flatMap encodeFrame ++ rest → (∀ call ∈ calls, call.Aligned) →
    calls.length = frames.length →
    (run recvFrame a calls).map Entry.out = frames.map .ok ∧
      recv (endState recvFrame a calls) = ⟨rest, (recv a).failure⟩
  cut : ∀ (a : α) (n : Nat) (calls : List RecvCall),
    recv a = ⟨(frames.flatMap encodeFrame).take n, none⟩ → (∀ call ∈ calls, call.Aligned) →
    (run recvFrame a calls).map Entry.out =
      ((framesBefore n frames).take calls.length).map .ok ++
        List.replicate (calls.length - (framesBefore n frames).length) (.err .closed)

/-! ## One call -/

namespace AdapterLemmas

open CodecLemmas

theorem readExact_append {region data rest : List UInt8} (failure : Option ReadError)
    (h : region.length = data.length) :
    RecvStream.readExact region ⟨data ++ rest, failure⟩ = (.ok (), data, ⟨rest, failure⟩) := by
  rw [RecvStream.readExact, if_pos (by simp [h])]
  simp [h]

theorem readExact_short {region bytes : List UInt8} (h : bytes.length < region.length) :
    ∃ filled, RecvStream.readExact region ⟨bytes, none⟩ =
      (.err (.finishedEarly bytes.length), filled, ⟨[], none⟩) := by
  rw [RecvStream.readExact, if_neg (Nat.not_le.mpr h)]
  exact ⟨_, rfl⟩

theorem readHeader_append (h : PacketHeader) (rest buffer : List UInt8) (failure : Option ReadError) :
    Receiver.readHeader ⟨⟨h.asBytes ++ rest, failure⟩, buffer⟩ =
      (.ok h.asBytes, ⟨⟨rest, failure⟩, buffer⟩) := by
  have hlen : (List.replicate headerSize (0 : UInt8)).length = h.asBytes.length := by
    rw [List.length_replicate, length_asBytes]
  rw [Receiver.readHeader]
  dsimp only
  rw [readExact_append failure hlen]
  rfl

theorem tryFromBytes_asBytes {addr : Nat} (ha : addr % 8 = 0) {h : PacketHeader}
    (hv : h.validate = .ok ()) : PacketHeader.tryFromBytes addr h.asBytes = .ok h := by
  have hof : PacketHeader.ofBytes h.asBytes = h := by
    simpa using ofBytes_asBytes h []
  rw [PacketHeader.tryFromBytes, if_neg (by rw [length_asBytes]; exact Nat.lt_irrefl _),
    if_neg (not_not_intro ha), hof, hv]
  rfl

/-- A call on a stream that begins with a valid header reads it, and goes on with a buffer that
holds the header and room for the payload. -/
theorem recvFrame_header {headerAddr : Nat} (bufferAddr : Nat) (ha : headerAddr % 8 = 0)
    {h : PacketHeader} (hv : h.validate = .ok ()) (rest buffer : List UInt8)
    (failure : Option ReadError) :
    ∃ room : List UInt8, room.length = h.payloadLength.toNat ∧
      Receiver.recvFrame headerAddr bufferAddr ⟨⟨h.asBytes ++ rest, failure⟩, buffer⟩ =
        (Receiver.readPayload h >>= fun _ => Call.getState >>= fun r =>
          Call.ofOutcome ((decodeFrame bufferAddr r.buffer).mapErr AdapterError.protocol))
          ⟨⟨rest, failure⟩, h.asBytes ++ room⟩ := by
  refine ⟨(resize (headerSize + h.payloadLength.toNat) buffer).drop headerSize, ?_, ?_⟩
  · rw [List.length_drop, length_resize, Nat.add_sub_cancel_left]
  · rw [Receiver.recvFrame, Call.bind_of_ok (readHeader_append h rest buffer failure),
      tryFromBytes_asBytes ha hv]
    rfl

theorem take_asBytes (h : PacketHeader) (room : List UInt8) :
    (h.asBytes ++ room).take headerSize = h.asBytes := by
  rw [← length_asBytes h, List.take_left]

theorem drop_asBytes (h : PacketHeader) (room : List UInt8) :
    (h.asBytes ++ room).drop headerSize = room := by
  rw [← length_asBytes h, List.drop_left]

theorem readPayload_append {h : PacketHeader} {room payload : List UInt8}
    (hroom : room.length = h.payloadLength.toNat) (hpayload : payload.length = h.payloadLength.toNat)
    (rest : List UInt8) (failure : Option ReadError) :
    Receiver.readPayload h ⟨⟨payload ++ rest, failure⟩, h.asBytes ++ room⟩ =
      (.ok (), ⟨⟨rest, failure⟩, h.asBytes ++ payload⟩) := by
  rw [Receiver.readPayload]
  split
  · dsimp only
    rw [drop_asBytes, take_asBytes, readExact_append failure (hroom.trans hpayload.symm)]
    rfl
  · next hzero =>
    -- nothing is read, and there is no room and no payload
    have hlen : h.payloadLength.toNat = 0 :=
      Nat.eq_zero_of_not_pos fun hpos => hzero (UInt16.lt_iff_toNat_lt.mpr hpos)
    rw [List.length_eq_zero_iff.mp (hroom.trans hlen), List.length_eq_zero_iff.mp (hpayload.trans hlen)]
    rfl

/-- A call on a stream that begins with a frame returns the frame and leaves the rest. -/
theorem recvFrame_whole {call : RecvCall} (ha : call.Aligned) {f : OwnedProtocolFrame}
    (hf : f.WellFormed) (rest : List UInt8) (failure : Option ReadError) :
    Receiver.recvFrame call.headerAddr call.bufferAddr
      ⟨⟨encodeFrame f ++ rest, failure⟩, call.buffer⟩ = (.ok f, ⟨⟨rest, failure⟩, encodeFrame f⟩) := by
  obtain ⟨room, hroom, hcall⟩ := recvFrame_header call.bufferAddr ha.1 hf.1
    (f.payload ++ rest) call.buffer failure
  rw [encodeFrame, List.append_assoc, hcall,
    Call.bind_of_ok (readPayload_append hroom hf.2.symm rest failure), Call.getState_bind]
  show ((decodeFrame call.bufferAddr (encodeFrame f)).mapErr AdapterError.protocol, _) = _
  rw [decodeFrame_encodeFrame ha.2 hf]
  rfl

/-- A call on a stream that ends within a header. -/
theorem recvFrame_cut_header {headerAddr bufferAddr : Nat} {bytes buffer : List UInt8}
    (h : bytes.length < headerSize) :
    ∃ buffer', Receiver.recvFrame headerAddr bufferAddr ⟨⟨bytes, none⟩, buffer⟩ =
      (.err .closed, ⟨⟨[], none⟩, buffer'⟩) := by
  obtain ⟨filled, hread⟩ := @readExact_short (List.replicate headerSize 0) bytes
    (by rwa [List.length_replicate])
  have hheader : Receiver.readHeader ⟨⟨bytes, none⟩, buffer⟩ =
      (.err .closed, ⟨⟨[], none⟩, buffer⟩) := by
    rw [Receiver.readHeader]
    dsimp only
    rw [hread]
    rfl
  exact ⟨buffer, Call.bind_of_err hheader _⟩

/-- A call on a stream that ends within a payload. -/
theorem recvFrame_cut_payload {headerAddr : Nat} (bufferAddr : Nat) (ha : headerAddr % 8 = 0)
    {h : PacketHeader} (hv : h.validate = .ok ()) {bytes : List UInt8} (buffer : List UInt8)
    (hcut : bytes.length < h.payloadLength.toNat) :
    ∃ buffer', Receiver.recvFrame headerAddr bufferAddr ⟨⟨h.asBytes ++ bytes, none⟩, buffer⟩ =
      (.err .closed, ⟨⟨[], none⟩, buffer'⟩) := by
  obtain ⟨room, hroom, hcall⟩ := recvFrame_header bufferAddr ha hv bytes buffer none
  rw [← hroom] at hcut
  obtain ⟨filled, hread⟩ := readExact_short hcut
  have hpos : h.payloadLength > 0 := by
    rw [gt_iff_lt, UInt16.lt_iff_toNat_lt, ← hroom]
    exact Nat.zero_lt_of_lt hcut
  have hpayload : Receiver.readPayload h ⟨⟨bytes, none⟩, h.asBytes ++ room⟩ =
      (.err .closed, ⟨⟨[], none⟩, h.asBytes ++ filled⟩) := by
    rw [Receiver.readPayload, if_pos hpos]
    dsimp only
    rw [drop_asBytes, take_asBytes, hread]
    rfl
  exact ⟨_, hcall.trans (Call.bind_of_err hpayload _)⟩

/-- A call on a stream that ends within a frame. -/
theorem recvFrame_cut {call : RecvCall} (ha : call.Aligned) {f : OwnedProtocolFrame}
    (hf : f.WellFormed) {n : Nat} (hn : n < (encodeFrame f).length) :
    ∃ buffer', Receiver.recvFrame call.headerAddr call.bufferAddr
      ⟨⟨(encodeFrame f).take n, none⟩, call.buffer⟩ = (.err .closed, ⟨⟨[], none⟩, buffer'⟩) := by
  rw [encodeFrame, List.length_append, length_asBytes] at hn
  rcases Nat.lt_or_ge n headerSize with hlt | hge
  · refine recvFrame_cut_header ?_
    rw [List.length_take]
    exact Nat.lt_of_le_of_lt (Nat.min_le_left _ _) hlt
  · obtain ⟨k, rfl⟩ := Nat.exists_eq_add_of_le hge
    rw [encodeFrame, ← length_asBytes f.header, List.take_length_add_append]
    refine recvFrame_cut_payload call.bufferAddr ha.1 hf.1 call.buffer ?_
    rw [List.length_take, hf.2]
    exact Nat.lt_of_le_of_lt (Nat.min_le_left _ _) (Nat.lt_of_add_lt_add_left hn)

/-! ## Successive calls -/

section Runs

variable {α : Type} {recv : α → RecvStream}
  {recvFrame : α → RecvCall → Outcome AdapterError OwnedProtocolFrame × α}

/-- The calls of an adapter are calls of the shared body on its stream. -/
def Reads (recv : α → RecvStream)
    (recvFrame : α → RecvCall → Outcome AdapterError OwnedProtocolFrame × α) : Prop :=
  ∀ a call r receiver,
    Receiver.recvFrame call.headerAddr call.bufferAddr ⟨recv a, call.buffer⟩ = (r, receiver) →
    (recvFrame a call).1 = r ∧ recv (recvFrame a call).2 = receiver.stream

theorem outs_of_empty (hreads : Reads recv recvFrame) {a : α} (ha : recv a = ⟨[], none⟩)
    (calls : List RecvCall) :
    (run recvFrame a calls).map Entry.out = List.replicate calls.length (.err .closed) := by
  induction calls generalizing a with
  | nil => rfl
  | cons call calls ih =>
    obtain ⟨buffer', hcall⟩ := @recvFrame_cut_header call.headerAddr call.bufferAddr [] call.buffer
      (by decide)
    obtain ⟨hout, hnext⟩ := hreads a call _ _ (ha ▸ hcall)
    rw [run_cons, List.map_cons, ih (hnext.trans ha)]
    exact congrArg (· :: _) hout

theorem outs_whole (hreads : Reads recv recvFrame) {frames : List OwnedProtocolFrame}
    (hframes : ∀ f ∈ frames, f.WellFormed) {a : α} {rest : List UInt8} {calls : List RecvCall}
    (ha : (recv a).bytes = frames.flatMap encodeFrame ++ rest)
    (haligned : ∀ call ∈ calls, call.Aligned) (hlen : calls.length = frames.length) :
    (run recvFrame a calls).map Entry.out = frames.map .ok ∧
      recv (endState recvFrame a calls) = ⟨rest, (recv a).failure⟩ := by
  induction frames generalizing a calls with
  | nil =>
    rw [List.length_eq_zero_iff.mp hlen]
    exact ⟨rfl, congrArg (RecvStream.mk · (recv a).failure) ha⟩
  | cons f fs ih =>
    obtain ⟨call, calls, rfl⟩ := List.exists_cons_of_length_eq_add_one hlen
    have hcall := recvFrame_whole (haligned call List.mem_cons_self) (hframes f List.mem_cons_self)
      (fs.flatMap encodeFrame ++ rest) (recv a).failure
    rw [List.flatMap_cons, List.append_assoc] at ha
    rw [← ha] at hcall
    obtain ⟨hout, hnext⟩ := hreads a call _ _ hcall
    obtain ⟨houts, hend⟩ := ih (fun g hg => hframes g (List.mem_cons_of_mem _ hg))
      (congrArg RecvStream.bytes hnext) (fun c hc => haligned c (List.mem_cons_of_mem _ hc))
      (Nat.succ.inj hlen)
    refine ⟨?_, ?_⟩
    · rw [run_cons, List.map_cons, houts, List.map_cons]
      exact congrArg (· :: _) hout
    · rw [endState_cons, hend, hnext]

theorem outs_cut (hreads : Reads recv recvFrame) {frames : List OwnedProtocolFrame}
    (hframes : ∀ f ∈ frames, f.WellFormed) {a : α} {n : Nat} {calls : List RecvCall}
    (ha : recv a = ⟨(frames.flatMap encodeFrame).take n, none⟩)
    (haligned : ∀ call ∈ calls, call.Aligned) :
    (run recvFrame a calls).map Entry.out =
      ((framesBefore n frames).take calls.length).map .ok ++
        List.replicate (calls.length - (framesBefore n frames).length) (.err .closed) := by
  induction frames generalizing a n calls with
  | nil =>
    rw [List.flatMap_nil, List.take_nil] at ha
    rw [outs_of_empty hreads ha, framesBefore, List.take_nil]
    rfl
  | cons f fs ih =>
    cases calls with
    | nil => simp
    | cons call calls =>
      rw [List.flatMap_cons, List.take_append] at ha
      have haf := haligned call List.mem_cons_self
      have hff := hframes f List.mem_cons_self
      rw [run_cons, List.map_cons, framesBefore]
      split
      · next hle =>
        -- the whole frame is there
        rw [List.take_of_length_le hle] at ha
        have hcall := recvFrame_whole haf hff
          ((fs.flatMap encodeFrame).take (n - (encodeFrame f).length)) none
        rw [← ha] at hcall
        obtain ⟨hout, hnext⟩ := hreads a call _ _ hcall
        rw [ih (fun g hg => hframes g (List.mem_cons_of_mem _ hg)) hnext
          (fun c hc => haligned c (List.mem_cons_of_mem _ hc)), List.length_cons, List.take_succ_cons,
          List.map_cons, List.length_cons, Nat.add_sub_add_right]
        exact congrArg (· :: _) hout
      · next hgt =>
        -- the stream ends within the frame, and stays at its end
        have hlt := Nat.not_le.mp hgt
        rw [Nat.sub_eq_zero_of_le (Nat.le_of_lt hlt), List.take_zero, List.append_nil] at ha
        obtain ⟨buffer', hcall⟩ := recvFrame_cut haf hff hlt
        rw [← ha] at hcall
        obtain ⟨hout, hnext⟩ := hreads a call _ _ hcall
        rw [outs_of_empty hreads hnext, List.take_nil]
        exact congrArg (· :: _) hout

end Runs

theorem reads_protocolAdapter : Reads QuicProtocolAdapter.recv QuicProtocolAdapter.recvFrame := by
  intro a call r receiver h
  rw [QuicProtocolAdapter.recvFrame, h]
  exact ⟨rfl, rfl⟩

theorem reads_recvAdapter : Reads QuicRecvAdapter.recv QuicRecvAdapter.recvFrame := by
  intro a call r receiver h
  rw [QuicRecvAdapter.recvFrame, h]
  exact ⟨rfl, rfl⟩

end AdapterLemmas

open AdapterLemmas

/-- Every list of well-formed frames is read back by successive calls of either `recv_frame`, and
from a stream that is cut exactly the frames before the cut, and then `Closed`. -/
theorem stream_framing (frames : List OwnedProtocolFrame) (hframes : ∀ f ∈ frames, f.WellFormed) :
    Framed QuicProtocolAdapter.recv QuicProtocolAdapter.recvFrame frames ∧
      Framed QuicRecvAdapter.recv QuicRecvAdapter.recvFrame frames := by
  refine ⟨⟨?_, ?_⟩, ⟨?_, ?_⟩⟩
  · exact fun _ _ _ => outs_whole reads_protocolAdapter hframes
  · exact fun _ _ _ => outs_cut reads_protocolAdapter hframes
  · exact fun _ _ _ => outs_whole reads_recvAdapter hframes
  · exact fun _ _ _ => outs_cut reads_recvAdapter hframes

/-- Two frames, cut in the header of the second one. -/
theorem stream_framing_two_frames :
    (∀ f ∈ [sampleFrame 1, sampleFrame 2], f.WellFormed) ∧
      (run QuicRecvAdapter.recvFrame
          ⟨⟨([sampleFrame 1, sampleFrame 2].flatMap encodeFrame).take 40, none⟩⟩
          [⟨[], 64, 128⟩, ⟨[1, 2, 3], 64, 128⟩]).map Entry.out =
        [.ok (sampleFrame 1), .err .closed] := by
  have hframes : ∀ f ∈ [sampleFrame 1, sampleFrame 2], f.WellFormed := by decide
  exact ⟨hframes, (stream_framing _ hframes).2.cut _ 40 _ rfl (by decide)⟩

end Blackwing.Transport
