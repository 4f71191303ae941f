import QQChat.Codec.Client
import QQChat.Codec.Server
import QQChat.Lib.Framing

/-!
# The client's read loop

`ChatClient::read_loop` (`chat_client.cpp`): `recv` returns a piece of the
stream, the piece goes to the end of `read_buffer_`, and an inner loop takes
complete packets off the front and hands them to `handle_packet`.

Mirroring notes:
- `running_` stays true and every `recv` returns something, so a run of the
  outer loop is the list of what the `recv`s returned. Their 4096-byte bound
  is not needed.
- The four header bytes are shifted together as `readUint32` does it; the
  source writes the expression out once more. `HEADER_SIZE + length` is a
  64-bit `size_t` and does not wrap.
- The inner loop consumes at least a header in each round, which is its
  termination measure.

`wire` is the frame format as the protocol means it. The read loop *is* its
greedy parse (`readLoop_eq`), so how the stream is cut into pieces is forgotten.
-/

namespace QQChat

open BigEndian

/-- The protocol's frames: version, command and a 32-bit big-endian length,
then as many bytes. -/
def wire : Framing UInt8 where
  header := HEADER_SIZE
  header_pos := by decide
  bodyLen header := ofBytes (header.drop 3)

theorem wire_total (b : Bytes) :
    wire.total b = HEADER_SIZE + ofBytes ((b.drop 3).take 4) := by
  show HEADER_SIZE + ofBytes ((b.take 7).drop 3) = _
  rw [List.drop_take]

namespace Client

/-! ## The loop -/

/-- The inner `while`: the packets handed over, and what stays in the buffer. -/
def drain (readBuffer : Bytes) : Access (List Bytes × Bytes) :=
  if _h : HEADER_SIZE ≤ readBuffer.length then do
    let length ← readUint32 readBuffer 3
    if HEADER_SIZE + length.toNat ≤ readBuffer.length then
      let packet := readBuffer.take (HEADER_SIZE + length.toNat)
      let (packets, rest) ← drain (readBuffer.drop (HEADER_SIZE + length.toNat))
      return (packet :: packets, rest)
    else
      return ([], readBuffer)
  else
    return ([], readBuffer)
termination_by readBuffer.length
decreasing_by
  have hsize : HEADER_SIZE = 7 := rfl
  rw [List.length_drop]
  omega

/-- The outer `while`, over what the `recv`s return. -/
def readLoop (readBuffer : Bytes) : List Bytes → Access (List Bytes × Bytes)
  | [] => return ([], readBuffer)
  | chunk :: chunks => do
    let (packets, readBuffer) ← drain (readBuffer ++ chunk)
    let (packets', readBuffer) ← readLoop readBuffer chunks
    return (packets ++ packets', readBuffer)

/-! ## It is the greedy parse -/

/-- The length a buffer with a header announces is read in bounds. -/
theorem readUint32_header {b : Bytes} (h : HEADER_SIZE ≤ b.length) :
    ∃ length : UInt32, readUint32 b 3 = some length
      ∧ HEADER_SIZE + length.toNat = wire.total b := by
  have hfits : 3 + 4 ≤ b.length := h
  obtain ⟨length, hread, hlen⟩ := readUint32_of_le hfits
  exact ⟨length, hread, by rw [hlen, wire_total]⟩

theorem drain_eq (b : Bytes) : drain b = some (wire.parse b) := by
  rw [drain]
  by_cases h : HEADER_SIZE ≤ b.length
  · obtain ⟨length, hread, htotal⟩ := readUint32_header h
    rw [dif_pos h, hread]
    show (if HEADER_SIZE + length.toNat ≤ b.length then _ else _) = _
    rw [htotal]
    by_cases hle : wire.total b ≤ b.length
    · have ih := drain_eq (b.drop (wire.total b))
      rw [if_pos hle, Framing.parse_of_complete ⟨h, hle⟩, ih]
      rfl
    · rw [if_neg hle, Framing.parse_of_not_complete fun hc => hle hc.2]
      rfl
  · rw [dif_neg h, Framing.parse_of_not_complete fun hc => h hc.1]
    rfl
termination_by b.length
decreasing_by exact Framing.length_drop_total_lt ⟨h, hle⟩

/-- Reading the stream in pieces is parsing it in pieces. -/
theorem readLoop_eq_parseChunks (chunks : List Bytes) (readBuffer : Bytes) :
    readLoop readBuffer chunks = some (wire.parseChunks readBuffer chunks) := by
  induction chunks generalizing readBuffer with
  | nil => rfl
  | cons chunk chunks ih =>
    unfold readLoop
    rw [drain_eq]
    show (do
      let (packets', rest) ← readLoop (wire.parse (readBuffer ++ chunk)).2 chunks
      return ((wire.parse (readBuffer ++ chunk)).1 ++ packets', rest)) = _
    rw [ih]
    rfl

/-- Later pieces are read on from the buffer that the earlier ones leave. -/
theorem readLoop_append {chunks : List Bytes} {readBuffer rest : Bytes} {packets : List Bytes}
    (h : readLoop readBuffer chunks = some (packets, rest)) (later : List Bytes) :
    readLoop readBuffer (chunks ++ later) = (readLoop rest later).map fun (packets', rest') =>
      (packets ++ packets', rest') := by
  rw [readLoop_eq_parseChunks] at h
  have hparse := Option.some_inj.mp h
  rw [readLoop_eq_parseChunks, readLoop_eq_parseChunks, Framing.parseChunks_append, hparse]
  rfl

/-- From a buffer without a complete packet, the pieces do not matter. -/
theorem readLoop_eq {readBuffer : Bytes} (h : ¬ wire.Complete readBuffer) (chunks : List Bytes) :
    readLoop readBuffer chunks = some (wire.parse (readBuffer ++ chunks.flatten)) := by
  rw [readLoop_eq_parseChunks, Framing.parseChunks_eq chunks h]

theorem not_complete_nil : ¬ wire.Complete [] := fun h => absurd h.1 (by decide)

/-! ## What is handed over -/

/-- A frame is what `decode` accepts: the length in its header is its own. -/
theorem decode_isFrame {packet : Bytes} (h : wire.IsFrame packet) :
    ∃ command, readUint16 packet 1 = some command
      ∧ decode packet = some (some (⟨command⟩, packet.drop HEADER_SIZE)) := by
  obtain ⟨length, hread, htotal⟩ := readUint32_header h.1
  have hlen : packet.length = HEADER_SIZE + length.toNat := by rw [htotal]; exact h.2
  have hsize : HEADER_SIZE = 7 := rfl
  have hheader : ¬ packet.length < HEADER_SIZE := by omega
  have h1 : packet[1]? = some packet[1] := List.getElem?_eq_getElem (by omega)
  have h2 : packet[1 + 1]? = some packet[1 + 1] := List.getElem?_eq_getElem (by omega)
  refine ⟨_, by unfold readUint16; rw [h1, h2]; rfl, ?_⟩
  unfold decode readUint16
  rw [if_neg hheader, h1, h2, hread]
  show (if packet.length ≠ HEADER_SIZE + length.toNat then _ else _) = _
  rw [if_neg (fun hne => hne hlen)]
  rfl

/-- **The stream is reassembled.** However it is cut into pieces, a read loop
that starts with an empty buffer has, after any of them, terminated on each,
read nothing outside the buffer, handed over the complete frames of the greedy
parse of what came so far, in order, and kept the unconsumed suffix; the pieces
that come later are read on from there. Everything handed over is accepted by
`decode`. -/
theorem readLoop_reassembles (chunks later : List Bytes) :
    ∃ packets readBuffer, readLoop [] chunks = some (packets, readBuffer)
      ∧ (packets, readBuffer) = wire.parse chunks.flatten
      ∧ wire.IsParse chunks.flatten packets readBuffer
      ∧ (∀ packet ∈ packets, ∃ command, readUint16 packet 1 = some command
          ∧ decode packet = some (some (⟨command⟩, packet.drop HEADER_SIZE)))
      ∧ readLoop [] (chunks ++ later) = (readLoop readBuffer later).map fun (packets', rest) =>
          (packets ++ packets', rest) := by
  have hspec := Framing.parse_spec (F := wire) chunks.flatten
  refine ⟨_, _, readLoop_eq not_complete_nil chunks, rfl, hspec, fun packet hpacket => ?_, ?_⟩
  · exact decode_isFrame (hspec.isFrame packet hpacket)
  · exact readLoop_append (readLoop_eq not_complete_nil chunks) later

end Client

end QQChat
