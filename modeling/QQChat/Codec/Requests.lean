import QQChat.Codec.Server
import QQChat.Codec.Client

/-!
# Requests, from the client's encoders to the server's decoders

`Request` is one value of any request kind; `Client.encodeRequest` picks the
client's encoder for it and `Server.decodeRequest` is the decoding half of the
switch in `MessageHandler::handle_message`, which picks a decoder by the
packet's command.

`request_roundtrip` is the agreement of the two separately written codecs: the
frame's header carries the request's command and the exact body length, and the
server decodes the body to the request the client was given.
-/

namespace QQChat

open BigEndian

/-- A request of any kind, as the client builds it. The friend's side of
`AddFriendRequest` is all that travels; the server fills in the user. -/
inductive Request where
  | login (req : LoginRequest)
  | message (req : MessageRequest)
  | friendList
  | addFriend (friendId : Int32)
  | register (req : RegisterRequest)
  | securityQuestion (req : SecurityQuestionRequest)
  | resetPassword (req : ResetPasswordRequest)
  | versionCheck (req : VersionCheckRequest)
  deriving DecidableEq, Repr

namespace Request

def command : Request → CommandCode
  | .login _ => .loginReq
  | .message _ => .messageReq
  | .friendList => .friendListReq
  | .addFriend _ => .addFriendReq
  | .register _ => .registerReq
  | .securityQuestion _ => .securityQuestionReq
  | .resetPassword _ => .resetPasswordReq
  | .versionCheck _ => .versionCheckReq

/-- Every length fits the width it is written in. -/
def Fits : Request → Prop
  | .login req => req.username.length ≤ 65535 ∧ req.password.length ≤ 65535
  | .message req => req.content.length < 2 ^ 32 - 8
  | .friendList => True
  | .addFriend _ => True
  | .register req => req.username.length ≤ 65535 ∧ req.password.length ≤ 65535
      ∧ req.securityQuestion.length ≤ 65535 ∧ req.securityAnswer.length ≤ 65535
  | .securityQuestion req => req.username.length ≤ 65535
  | .resetPassword req => req.username.length ≤ 65535 ∧ req.newPassword.length ≤ 65535
      ∧ req.securityAnswer.length ≤ 65535
  | .versionCheck _ => True

end Request

/-- The client's encoder for a request. -/
def Client.encodeRequest : Request → Bytes
  | .login req => encodeLoginRequest req.username req.password
  | .message req => encodeMessageRequest req.toId req.content
  | .friendList => encodeFriendListRequest
  | .addFriend friendId => encodeAddFriendRequest friendId
  | .register req =>
    encodeRegisterRequest req.username req.password req.securityQuestion req.securityAnswer
  | .securityQuestion req => encodeSecurityQuestionRequest req.username
  | .resetPassword req =>
    encodeResetPasswordRequest req.username req.newPassword req.securityAnswer
  | .versionCheck req => encodeVersionCheckRequest req.clientVersion

/-- What the encoder framed: everything after the header. -/
def Request.body (r : Request) : Bytes :=
  (Client.encodeRequest r).drop HEADER_SIZE

/-- The decoding half of `handle_message`'s switch. The inner `none` is a
packet that no handler is called for: undecodable, or of an unknown command. -/
def Server.decodeRequest (packet : Packet) : Access (Option Request) :=
  if packet.command = .loginReq then
    (decodeLoginRequest packet.data).map (Option.map .login)
  else if packet.command = .messageReq then
    (decodeMessageRequest packet.data).map (Option.map .message)
  else if packet.command = .friendListReq then
    some (some .friendList)
  else if packet.command = .addFriendReq then
    if packet.data.length ≥ 4 then
      (readInt32 packet.data 0).map fun friendId => some (.addFriend friendId)
    else some none
  else if packet.command = .registerReq then
    (decodeRegisterRequest packet.data).map (Option.map .register)
  else if packet.command = .securityQuestionReq then
    (decodeSecurityQuestionRequest packet.data).map (Option.map .securityQuestion)
  else if packet.command = .resetPasswordReq then
    (decodeResetPasswordRequest packet.data).map (Option.map .resetPassword)
  else if packet.command = .versionCheckReq then
    (decodeVersionCheckRequest packet.data).map (Option.map .versionCheck)
  else some none

/-! ## The frame around a body -/

namespace Client

theorem encode_eq (command : CommandCode) (data : Bytes) :
    encode command data = VERSION :: (toBytes 2 command.toUInt16.toNat
      ++ (toBytes 4 (data.length % 2 ^ 32) ++ data)) := by
  simp only [encode, writeUint32_eq, writeUint16_eq, UInt32.toNat_ofNat', List.append_assoc,
    List.cons_append, List.nil_append]

theorem drop_encode (command : CommandCode) (data : Bytes) :
    (encode command data).drop HEADER_SIZE = data := by
  rw [encode_eq]
  rfl

theorem command_encode (command : CommandCode) (data : Bytes) :
    readUint16 (encode command data) 1 = some command.toUInt16 := by
  have h : (encode command data).drop 1 = toBytes 2 command.toUInt16.toNat
      ++ (toBytes 4 (data.length % 2 ^ 32) ++ data) := by
    rw [encode_eq, List.drop_one, List.tail_cons]
  rw [readUint16_of_drop h, UInt16.ofNat_toNat]

theorem length_field_encode (command : CommandCode) (data : Bytes) :
    readUint32 (encode command data) 3 = some (UInt32.ofNat data.length) := by
  have h : (encode command data).drop 3 = toBytes 4 (data.length % 2 ^ 32) ++ data := by
    rw [encode_eq]
    rfl
  rw [readUint32_of_drop h]
  refine congrArg some (UInt32.toNat_inj.mp ?_)
  rw [UInt32.toNat_ofNat', UInt32.toNat_ofNat', Nat.mod_mod]

end Client

/-! ## The body of each request -/

theorem body_login (req : LoginRequest) :
    (Request.login req).body = field req.username ++ field req.password := by
  show (Client.encodeLoginRequest _ _).drop HEADER_SIZE = _
  simp only [Client.encodeLoginRequest, Client.drop_encode, writeString_eq, List.nil_append]

theorem body_message (req : MessageRequest) :
    (Request.message req).body = toBytes 4 req.toId.toUInt32.toNat
      ++ (toBytes 4 (req.content.length % 2 ^ 32) ++ req.content) := by
  show (Client.encodeMessageRequest _ _).drop HEADER_SIZE = _
  simp only [Client.encodeMessageRequest, Client.drop_encode, writeUint32_eq, writeInt32_eq,
    UInt32.toNat_ofNat', List.append_assoc, List.nil_append]

theorem body_friendList : Request.friendList.body = [] :=
  Client.drop_encode _ _

theorem body_addFriend (friendId : Int32) :
    (Request.addFriend friendId).body = toBytes 4 friendId.toUInt32.toNat := by
  show (Client.encodeAddFriendRequest _).drop HEADER_SIZE = _
  simp only [Client.encodeAddFriendRequest, Client.drop_encode, writeInt32_eq, List.nil_append]

theorem body_register (req : RegisterRequest) :
    (Request.register req).body = field req.username ++ (field req.password
      ++ (field req.securityQuestion ++ field req.securityAnswer)) := by
  show (Client.encodeRegisterRequest _ _ _ _).drop HEADER_SIZE = _
  simp only [Client.encodeRegisterRequest, Client.drop_encode, writeString_eq, List.append_assoc,
    List.nil_append]

theorem body_securityQuestion (req : SecurityQuestionRequest) :
    (Request.securityQuestion req).body = field req.username := by
  show (Client.encodeSecurityQuestionRequest _).drop HEADER_SIZE = _
  simp only [Client.encodeSecurityQuestionRequest, Client.drop_encode, writeString_eq,
    List.nil_append]

theorem body_resetPassword (req : ResetPasswordRequest) :
    (Request.resetPassword req).body = field req.username ++ (field req.newPassword
      ++ field req.securityAnswer) := by
  show (Client.encodeResetPasswordRequest _ _ _).drop HEADER_SIZE = _
  simp only [Client.encodeResetPasswordRequest, Client.drop_encode, writeString_eq,
    List.append_assoc, List.nil_append]

theorem body_versionCheck (req : VersionCheckRequest) :
    (Request.versionCheck req).body = toBytes 4 req.clientVersion.toUInt32.toNat := by
  show (Client.encodeVersionCheckRequest _).drop HEADER_SIZE = _
  simp only [Client.encodeVersionCheckRequest, Client.drop_encode, writeInt32_eq, List.nil_append]

/-- Every encoder ends in the frame codec. -/
theorem encodeRequest_eq (r : Request) :
    Client.encodeRequest r = Client.encode r.command r.body := by
  cases r <;>
    exact congrArg (Client.encode _) (Client.drop_encode _ _).symm

/-! ## Decoding what was encoded -/

namespace Server

/-- A length-prefixed string that is next in `data` is read whole. -/
theorem readField_of_drop {data str rest : Bytes} {offset : Nat} (hstr : str.length ≤ 65535)
    (h : data.drop offset = field str ++ rest) :
    readField data offset = some (some (str, offset + (field str).length)) := by
  obtain ⟨len, hread, hlen, hroom, hbody⟩ := field_of_drop hstr h
  rw [length_field, ← Nat.add_assoc]
  unfold readField
  simp only [hread, hlen, Option.bind_eq_bind, Option.bind_some,
    if_neg (Nat.not_lt.mpr hroom), hbody, Option.pure_def]

/-- The offset after a field is where the next one starts. -/
theorem drop_field {data str rest : Bytes} {offset : Nat}
    (h : data.drop offset = field str ++ rest) :
    data.drop (offset + (field str).length) = rest :=
  drop_of_drop h

theorem decodeLoginRequest_fields {u p : Bytes} (hu : u.length ≤ 65535) (hp : p.length ≤ 65535) :
    decodeLoginRequest (field u ++ field p) = some (some ⟨u, p⟩) := by
  have h0 : (field u ++ field p).drop 0 = field u ++ field p := rfl
  have h1 := (drop_field h0).trans (List.append_nil _).symm
  have hlen : ¬ (field u ++ field p).length < 4 := by
    rw [List.length_append, length_field, length_field]
    omega
  unfold decodeLoginRequest
  simp only [if_neg hlen, Option.bind_eq_bind, readField_of_drop hu h0, Option.bind_some,
    if_neg (Nat.not_lt.mpr <| room_of_drop h1), readField_of_drop hp h1]
  rfl

theorem decodeMessageRequest_body {toId : Int32} {content : Bytes}
    (hc : content.length < 2 ^ 32 - 8) :
    decodeMessageRequest (toBytes 4 toId.toUInt32.toNat
        ++ (toBytes 4 (content.length % 2 ^ 32) ++ content)) = some (some ⟨toId, content⟩) := by
  generalize hdata : toBytes 4 toId.toUInt32.toNat
    ++ (toBytes 4 (content.length % 2 ^ 32) ++ content) = data
  have hlen : data.length = 8 + content.length := by
    rw [← hdata]
    simp only [List.length_append, length_toBytes]
    omega
  have h0 : data.drop 0 = toBytes 4 toId.toUInt32.toNat
      ++ (toBytes 4 (content.length % 2 ^ 32) ++ content) := hdata.symm
  have h4 : data.drop 4 = toBytes 4 (content.length % 2 ^ 32) ++ content := drop_of_drop h0
  have h8 : data.drop 8 = content ++ [] := by
    rw [List.append_nil]
    exact drop_of_drop h4
  have hmod : content.length % 2 ^ 32 = content.length := Nat.mod_eq_of_lt (by omega)
  have hsum : (4 + 4 + UInt32.ofNat content.length).toNat = 8 + content.length := by
    rw [UInt32.toNat_add, UInt32.toNat_ofNat', hmod]
    exact Nat.mod_eq_of_lt (by show 8 + content.length < 2 ^ 32; omega)
  unfold decodeMessageRequest
  simp only [if_neg (show ¬ data.length < 8 by omega), Option.bind_eq_bind, readInt32_of_drop h0,
    Option.bind_some, readUint32_of_drop h4, hmod, hsum,
    if_neg (show ¬ 8 + content.length > data.length by omega), UInt32.toNat_ofNat',
    readString_of_drop (show 8 ≤ data.length by omega) h8]
  rfl

theorem decodeRegisterRequest_fields {u p q a : Bytes} (hu : u.length ≤ 65535)
    (hp : p.length ≤ 65535) (hq : q.length ≤ 65535) (ha : a.length ≤ 65535) :
    decodeRegisterRequest (field u ++ (field p ++ (field q ++ field a)))
      = some (some ⟨u, p, q, a⟩) := by
  have h0 : (field u ++ (field p ++ (field q ++ field a))).drop 0
      = field u ++ (field p ++ (field q ++ field a)) := rfl
  have h1 := drop_field h0
  have h2 := drop_field h1
  have h3 := (drop_field h2).trans (List.append_nil _).symm
  have hlen : ¬ (field u ++ (field p ++ (field q ++ field a))).length < 6 := by
    simp only [List.length_append, length_field]
    omega
  unfold decodeRegisterRequest
  simp only [if_neg hlen, Option.bind_eq_bind, readField_of_drop hu h0, Option.bind_some,
    if_neg (Nat.not_lt.mpr <| room_of_drop h1), readField_of_drop hp h1,
    if_neg (Nat.not_lt.mpr <| room_of_drop h2),
    readField_of_drop hq h2, if_neg (Nat.not_lt.mpr <| room_of_drop h3), readField_of_drop ha h3]
  rfl

theorem decodeSecurityQuestionRequest_field {u : Bytes} (hu : u.length ≤ 65535) :
    decodeSecurityQuestionRequest (field u) = some (some ⟨u⟩) := by
  have h0 : (field u).drop 0 = field u ++ [] := (List.append_nil _).symm
  have hlen : ¬ (field u).length < 2 := by
    rw [length_field]
    omega
  unfold decodeSecurityQuestionRequest
  simp only [if_neg hlen, Option.bind_eq_bind, readField_of_drop hu h0, Option.bind_some]
  rfl

theorem decodeResetPasswordRequest_fields {u p a : Bytes} (hu : u.length ≤ 65535)
    (hp : p.length ≤ 65535) (ha : a.length ≤ 65535) :
    decodeResetPasswordRequest (field u ++ (field p ++ field a)) = some (some ⟨u, p, a⟩) := by
  have h0 : (field u ++ (field p ++ field a)).drop 0 = field u ++ (field p ++ field a) := rfl
  have h1 := drop_field h0
  have h2 := (drop_field h1).trans (List.append_nil _).symm
  have hlen : ¬ (field u ++ (field p ++ field a)).length < 6 := by
    simp only [List.length_append, length_field]
    omega
  unfold decodeResetPasswordRequest
  simp only [if_neg hlen, Option.bind_eq_bind, readField_of_drop hu h0, Option.bind_some,
    if_neg (Nat.not_lt.mpr <| room_of_drop h1), readField_of_drop hp h1,
    if_neg (Nat.not_lt.mpr <| room_of_drop h2),
    readField_of_drop ha h2]
  rfl

theorem decodeVersionCheckRequest_body (v : Int32) :
    decodeVersionCheckRequest (toBytes 4 v.toUInt32.toNat) = some (some ⟨v⟩) := by
  have h0 : (toBytes 4 v.toUInt32.toNat).drop 0 = toBytes 4 v.toUInt32.toNat ++ [] :=
    (List.append_nil _).symm
  unfold decodeVersionCheckRequest
  rw [if_neg (by rw [length_toBytes]; omega), readInt32_of_drop h0]
  rfl

/-- The friend id is read inline by `handle_message`, not by a decoder. -/
theorem decodeRequest_addFriend (version : UInt8) (friendId : Int32) :
    decodeRequest ⟨version, .addFriendReq, toBytes 4 friendId.toUInt32.toNat⟩
      = some (some (.addFriend friendId)) := by
  have h0 : (toBytes 4 friendId.toUInt32.toNat).drop 0 = toBytes 4 friendId.toUInt32.toNat ++ [] :=
    (List.append_nil _).symm
  have hlen : (toBytes 4 friendId.toUInt32.toNat).length ≥ 4 :=
    Nat.le_of_eq (length_toBytes 4 _).symm
  show (if (toBytes 4 friendId.toUInt32.toNat).length ≥ 4
    then (readInt32 (toBytes 4 friendId.toUInt32.toNat) 0).map fun id => some (Request.addFriend id)
    else some none) = _
  rw [if_pos hlen, readInt32_of_drop h0]
  rfl

/-- The switch hands the body of a request to that request's decoder, which
returns it. -/
theorem decodeRequest_body {r : Request} (h : r.Fits) (version : UInt8) :
    decodeRequest ⟨version, r.command, r.body⟩ = some (some r) := by
  cases r with
  | login req =>
    rw [body_login]
    exact congrArg (Option.map (Option.map Request.login)) (decodeLoginRequest_fields h.1 h.2)
  | message req =>
    rw [body_message]
    exact congrArg (Option.map (Option.map Request.message)) (decodeMessageRequest_body h)
  | friendList => rfl
  | addFriend friendId =>
    rw [body_addFriend]
    exact decodeRequest_addFriend version friendId
  | register req =>
    obtain ⟨hu, hp, hq, ha⟩ := h
    rw [body_register]
    exact congrArg (Option.map (Option.map Request.register))
      (decodeRegisterRequest_fields hu hp hq ha)
  | securityQuestion req =>
    rw [body_securityQuestion]
    exact congrArg (Option.map (Option.map Request.securityQuestion))
      (decodeSecurityQuestionRequest_field h)
  | resetPassword req =>
    obtain ⟨hu, hp, ha⟩ := h
    rw [body_resetPassword]
    exact congrArg (Option.map (Option.map Request.resetPassword))
      (decodeResetPasswordRequest_fields hu hp ha)
  | versionCheck req =>
    rw [body_versionCheck]
    exact congrArg (Option.map (Option.map Request.versionCheck)) (decodeVersionCheckRequest_body _)

end Server

/-- A fitting request's body is shorter than the 32-bit length field can say. -/
theorem Request.body_length_lt {r : Request} (h : r.Fits) : r.body.length < 2 ^ 32 := by
  cases r with
  | login req =>
    obtain ⟨hu, hp⟩ := h
    rw [body_login, List.length_append, length_field, length_field]
    omega
  | message req =>
    have hc : req.content.length < 2 ^ 32 - 8 := h
    rw [body_message]
    simp only [List.length_append, length_toBytes]
    omega
  | friendList => rw [body_friendList]; decide
  | addFriend friendId => rw [body_addFriend, length_toBytes]; decide
  | register req =>
    obtain ⟨hu, hp, hq, ha⟩ := h
    rw [body_register]
    simp only [List.length_append, length_field]
    omega
  | securityQuestion req =>
    have hu : req.username.length ≤ 65535 := h
    rw [body_securityQuestion, length_field]
    omega
  | resetPassword req =>
    obtain ⟨hu, hp, ha⟩ := h
    rw [body_resetPassword]
    simp only [List.length_append, length_field]
    omega
  | versionCheck req => rw [body_versionCheck, length_toBytes]; decide

/-- **Request round trip.** For a request whose lengths fit their fields, the
client's frame carries the request's command and exact body length in its
header, and the server's decoder for that command turns the rest of the frame
back into the request. -/
theorem request_roundtrip (r : Request) (h : r.Fits) :
    readUint16 (Client.encodeRequest r) 1 = some r.command.toUInt16
      ∧ (readUint32 (Client.encodeRequest r) 3).map UInt32.toNat
          = some ((Client.encodeRequest r).drop HEADER_SIZE).length
      ∧ ∀ version, Server.decodeRequest
          ⟨version, r.command, (Client.encodeRequest r).drop HEADER_SIZE⟩ = some (some r) := by
  refine ⟨?_, ?_, fun version => Server.decodeRequest_body h version⟩
  · rw [encodeRequest_eq, Client.command_encode]
  · have hlt := Request.body_length_lt h
    rw [encodeRequest_eq, Client.length_field_encode, Client.drop_encode, Option.map_some,
      UInt32.toNat_ofNat', Nat.mod_eq_of_lt hlt]

/-- The round trip of one login request. -/
theorem request_roundtrip_login :
    Server.decodeRequest ⟨VERSION, .loginReq,
        (Client.encodeRequest (.login ⟨[97, 98], [99]⟩)).drop HEADER_SIZE⟩
      = some (some (.login ⟨[97, 98], [99]⟩)) :=
  (request_roundtrip (.login ⟨[97, 98], [99]⟩) ⟨by decide, by decide⟩).2.2 VERSION

end QQChat
