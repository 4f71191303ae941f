import QQChat.Codec.Frames

/-!
# The frame codec, both ways and on both sides

A frame is the packet's version, command, body length and body, and nothing else,
so the frame codec is a bijection between the packets whose body length fits its 32
bits and the byte vectors that `decode` accepts: `Server.decode_encode` one way,
`Server.encode_of_decode` the other. The client has a codec of its own, without the
version; `Client.decode_eq` says that it accepts the same vectors and hands over the
same command and body.
-/

namespace QQChat

open BigEndian

namespace Server

theorem encode_eq (packet : Packet) :
    encode packet = packet.version :: (toBytes 2 packet.command.toUInt16.toNat
      ++ (toBytes 4 (packet.data.length % 2 ^ 32) ++ packet.data)) := by
  simp only [encode, writeUint32_eq, writeUint16_eq, UInt32.toNat_ofNat', List.append_assoc,
    List.cons_append, List.nil_append]

/-- The header is there, and the three members are read inside it. -/
theorem readHeader {data : Bytes} (h : ¬ data.length < HEADER_SIZE) :
    ∃ version command length, data[0]? = some version ∧ readUint16 data 1 = some command
      ∧ readUint32 data 3 = some length := by
  have hsize : HEADER_SIZE = 7 := rfl
  obtain ⟨command, hcommand⟩ := readUint16_of_le (show 1 + 2 ≤ data.length by omega)
  obtain ⟨length, hlength, _⟩ := readUint32_of_le (show 3 + 4 ≤ data.length by omega)
  exact ⟨data[0], command, length, List.getElem?_eq_getElem (by omega), hcommand, hlength⟩

/-- `decode` once the header has been read. -/
theorem decode_of_header {data : Bytes} {version : UInt8} {command : UInt16} {length : UInt32}
    (h : ¬ data.length < HEADER_SIZE) (hversion : data[0]? = some version)
    (hcommand : readUint16 data 1 = some command) (hlength : readUint32 data 3 = some length) :
    decode data = some (if data.length ≠ HEADER_SIZE + length.toNat then none
      else some ⟨version, ⟨command⟩, data.drop HEADER_SIZE⟩) := by
  unfold decode
  simp only [if_neg h, hversion, hcommand, hlength, Option.bind_eq_bind, Option.bind_some]
  split <;> rfl

theorem decode_isSome (data : Bytes) : (decode data).isSome := by
  by_cases h : data.length < HEADER_SIZE
  · unfold decode
    rw [if_pos h]
    rfl
  · obtain ⟨version, command, length, hversion, hcommand, hlength⟩ := readHeader h
    rw [decode_of_header h hversion hcommand hlength]
    rfl

/-- What was framed is unframed, if the length did not wrap, and refused otherwise. -/
theorem decode_frame (packet : Packet) :
    decode (encode packet)
      = some (if packet.data.length < 2 ^ 32 then some packet else none) := by
  rw [encode_eq]
  generalize hframe : packet.version :: (toBytes 2 packet.command.toUInt16.toNat
    ++ (toBytes 4 (packet.data.length % 2 ^ 32) ++ packet.data)) = data
  have hlen : data.length = HEADER_SIZE + packet.data.length := by
    rw [← hframe]
    simp only [List.length_cons, List.length_append, length_toBytes, HEADER_SIZE]
    omega
  have h0 : data[0]? = some packet.version := by rw [← hframe]; rfl
  have h1 : data.drop 1 = toBytes 2 packet.command.toUInt16.toNat
      ++ (toBytes 4 (packet.data.length % 2 ^ 32) ++ packet.data) := by rw [← hframe]; rfl
  have h3 : data.drop 3 = toBytes 4 (packet.data.length % 2 ^ 32) ++ packet.data :=
    drop_of_drop h1
  have h7 : data.drop HEADER_SIZE = packet.data := drop_of_drop h3
  rw [decode_of_header (by omega) h0 (readUint16_of_drop h1) (readUint32_of_drop h3),
    UInt32.toNat_ofNat', Nat.mod_mod, h7, UInt16.ofNat_toNat]
  by_cases hfits : packet.data.length < 2 ^ 32
  · rw [if_pos hfits, if_neg (by omega)]
  · rw [if_neg hfits, if_pos (by omega)]

theorem decode_encode {packet : Packet} (h : packet.data.length < 2 ^ 32) :
    decode (encode packet) = some (some packet) := by
  rw [decode_frame, if_pos h]

/-- What is accepted is the frame of what it is accepted as. -/
theorem encode_of_decode {data : Bytes} {packet : Packet}
    (h : decode data = some (some packet)) : encode packet = data := by
  by_cases hsize : data.length < HEADER_SIZE
  · unfold decode at h
    rw [if_pos hsize] at h
    cases h
  obtain ⟨version, command, length, hversion, hcommand, hlength⟩ := readHeader hsize
  rw [decode_of_header hsize hversion hcommand hlength, Option.some_inj] at h
  split at h
  · cases h
  next hlen =>
    obtain rfl := Option.some.inj h
    have hbody : (data.drop HEADER_SIZE).length = length.toNat := by
      rw [List.length_drop]
      omega
    obtain ⟨hlt, rfl⟩ := List.getElem?_eq_some_iff.mp hversion
    have hframe : data[0] :: (toBytes 2 command.toNat
        ++ (toBytes 4 length.toNat ++ data.drop HEADER_SIZE)) = data := by
      rw [show HEADER_SIZE = 3 + 4 from rfl, ← drop_of_readUint32 hlength,
        show 3 = 1 + 2 from rfl, ← drop_of_readUint16 hcommand, ← List.drop_eq_getElem_cons hlt,
        List.drop_zero]
    rw [encode_eq, hbody, Nat.mod_eq_of_lt length.toNat_lt]
    exact hframe

end Server

/-- The client's `decode` is the server's, less the version. -/
theorem Client.decode_eq (data : Bytes) :
    Client.decode data
      = (Server.decode data).map (Option.map fun packet => (packet.command, packet.data)) := by
  by_cases h : data.length < HEADER_SIZE
  · unfold Client.decode Server.decode
    rw [if_pos h, if_pos h]
    rfl
  · obtain ⟨version, command, length, hversion, hcommand, hlength⟩ := Server.readHeader h
    rw [Server.decode_of_header h hversion hcommand hlength]
    unfold Client.decode
    simp only [if_neg h, hcommand, hlength, Option.bind_eq_bind, Option.bind_some]
    split <;> rfl

theorem Client.decode_frame (packet : Packet) :
    Client.decode (Server.encode packet)
      = some (if packet.data.length < 2 ^ 32 then some (packet.command, packet.data)
        else none) := by
  rw [Client.decode_eq, Server.decode_frame]
  split <;> rfl

theorem Client.decode_eq_some_iff (data : Bytes) (command : CommandCode) (body : Bytes) :
    Client.decode data = some (some (command, body))
      ↔ ∃ version, Server.decode data = some (some ⟨version, command, body⟩) := by
  rw [Client.decode_eq]
  constructor
  · intro h
    obtain ⟨result, hdecode, hresult⟩ := Option.map_eq_some_iff.mp h
    obtain ⟨packet, rfl, hpacket⟩ := Option.map_eq_some_iff.mp hresult
    cases hpacket
    exact ⟨packet.version, hdecode⟩
  · rintro ⟨version, h⟩
    rw [h]
    rfl

/-- **The frame codec is a bijection, and the two codecs are the same one.** A packet
whose body length fits is decoded from its frame; a vector that is accepted is the frame
of the packet it is accepted as; the client accepts a vector exactly if the server does,
with the same command and body, and frames as the server does with version 1. Nothing is
read outside the vector by either. -/
theorem frame_codec_bijection :
    (∀ packet : Packet, packet.data.length < 2 ^ 32 →
      Server.decode (Server.encode packet) = some (some packet))
    ∧ (∀ (data : Bytes) (packet : Packet), Server.decode data = some (some packet) →
      Server.encode packet = data)
    ∧ (∀ (data : Bytes) (command : CommandCode) (body : Bytes),
      Client.decode data = some (some (command, body))
        ↔ ∃ version, Server.decode data = some (some ⟨version, command, body⟩))
    ∧ (∀ (command : CommandCode) (body : Bytes),
      Client.encode command body = Server.encode ⟨1, command, body⟩)
    ∧ (∀ data : Bytes, (Server.decode data).isSome ∧ (Client.decode data).isSome) := by
  refine ⟨fun _ => Server.decode_encode, fun _ _ => Server.encode_of_decode,
    Client.decode_eq_some_iff, fun _ _ => rfl, fun data => ⟨Server.decode_isSome data, ?_⟩⟩
  rw [Client.decode_eq, Option.isSome_map]
  exact Server.decode_isSome data

/-- A frame with a version of the future, there and back. -/
theorem frame_codec_bijection_value :
    Server.decode (Server.encode ⟨2, .messageReq, [104, 105]⟩)
        = some (some ⟨2, .messageReq, [104, 105]⟩)
      ∧ Server.encode ⟨7, ⟨256⟩, [9]⟩ = [7, 1, 0, 0, 0, 0, 1, 9] :=
  ⟨frame_codec_bijection.1 ⟨2, .messageReq, [104, 105]⟩ (by decide),
    frame_codec_bijection.2.1 [7, 1, 0, 0, 0, 0, 1, 9] ⟨7, ⟨256⟩, [9]⟩ (by decide)⟩

end QQChat
