import QQChat.Wire.Protocol

/-!
# The server's codec

`server/src/protocol_codec.cpp`, function by function: it encodes responses
and decodes requests (the client's codec, `Codec.Client`, does the converse).

Mirroring notes:
- A decoder is `Access (Option T)`: the outer `none` is a read outside `data`,
  the inner one is `return false`. The partly filled out-parameter of a failing
  decoder is never looked at by its callers and has no counterpart here.
- The four string-list decoders repeat one block per field: read a 16-bit
  length, advance, check the body against `data.size()`, copy it, advance.
  `readField` is that block; the check that the *length* itself fits stands
  before every field but the first, which the initial size guard covers.
- `offset` and `data.size()` are 64-bit `size_t`, so `offset + len` is exact.
  `content_len` is a `uint32_t` and so is every sum it enters: those wrap.
-/

namespace QQChat.Server

/-! ## Frames -/

def encode (packet : Packet) : Bytes :=
  let buffer := [packet.version]
  let buffer := writeUint16 buffer packet.command.toUInt16
  let buffer := writeUint32 buffer (UInt32.ofNat packet.data.length)
  buffer ++ packet.data

def decode (data : Bytes) : Access (Option Packet) := do
  if data.length < HEADER_SIZE then return none
  let version ← data[0]?
  let command ← readUint16 data 1
  let length ← readUint32 data 3
  if data.length ≠ HEADER_SIZE + length.toNat then return none
  return some ⟨version, ⟨command⟩, data.drop HEADER_SIZE⟩

/-! ## Decoding requests -/

/-- The block every length-prefixed field is read by: the field's bytes and
the offset after it. -/
def readField (data : Bytes) (offset : Nat) : Access (Option (Bytes × Nat)) := do
  let len ← readUint16 data offset
  let offset := offset + 2
  if offset + len.toNat > data.length then return none
  let str ← readString data offset len.toNat
  return some (str, offset + len.toNat)

def decodeLoginRequest (data : Bytes) : Access (Option LoginRequest) := do
  if data.length < 4 then return none
  let some (username, offset) ← readField data 0 | return none
  if offset + 2 > data.length then return none
  let some (password, _) ← readField data offset | return none
  return some { username, password }

/-- `4 + 4 + content_len` is computed in `uint32_t`. -/
def decodeMessageRequest (data : Bytes) : Access (Option MessageRequest) := do
  if data.length < 8 then return none
  let toId ← readInt32 data 0
  let contentLen ← readUint32 data 4
  if (4 + 4 + contentLen).toNat > data.length then return none
  let content ← readString data 8 contentLen.toNat
  return some { toId, content }

def decodeRegisterRequest (data : Bytes) : Access (Option RegisterRequest) := do
  if data.length < 6 then return none
  let some (username, offset) ← readField data 0 | return none
  if offset + 2 > data.length then return none
  let some (password, offset) ← readField data offset | return none
  if offset + 2 > data.length then return none
  let some (securityQuestion, offset) ← readField data offset | return none
  if offset + 2 > data.length then return none
  let some (securityAnswer, _) ← readField data offset | return none
  return some { username, password, securityQuestion, securityAnswer }

def decodeSecurityQuestionRequest (data : Bytes) : Access (Option SecurityQuestionRequest) := do
  if data.length < 2 then return none
  let some (username, _) ← readField data 0 | return none
  return some { username }

def decodeResetPasswordRequest (data : Bytes) : Access (Option ResetPasswordRequest) := do
  if data.length < 6 then return none
  let some (username, offset) ← readField data 0 | return none
  if offset + 2 > data.length then return none
  let some (newPassword, offset) ← readField data offset | return none
  if offset + 2 > data.length then return none
  let some (securityAnswer, _) ← readField data offset | return none
  return some { username, newPassword, securityAnswer }

def decodeVersionCheckRequest (data : Bytes) : Access (Option VersionCheckRequest) := do
  if data.length < 4 then return none
  let clientVersion ← readInt32 data 0
  return some { clientVersion }

/-! ## Encoding responses -/

def encodeLoginResponse (resp : LoginResponse) : Bytes :=
  let buffer := writeUint16 [] resp.errorCode.toUInt16
  let buffer := writeInt32 buffer resp.userId
  writeString buffer resp.username

def encodeMessageResponse (resp : MessageResponse) : Bytes :=
  let buffer := writeUint16 [] resp.errorCode.toUInt16
  writeInt32 buffer resp.msgId

def encodeMessageNotify (notify : MessageNotify) : Bytes :=
  let buffer := writeInt32 [] notify.fromId
  let buffer := writeUint32 buffer (UInt32.ofNat notify.content.length)
  let buffer := buffer ++ notify.content
  writeInt64 buffer notify.timestamp

/-- `8 + content_len` and `8 + content_len + 8` are computed in `uint32_t`. -/
def decodeMessageNotify (data : Bytes) : Access (Option MessageNotify) := do
  if data.length < 16 then return none
  let fromId ← readInt32 data 0
  let contentLen ← readUint32 data 4
  if (8 + contentLen + 8).toNat > data.length then return none
  let content ← readString data 8 contentLen.toNat
  let timestamp ← readInt64 data (8 + contentLen).toNat
  return some { fromId, content, timestamp }

/-- One round of the loop over `resp.friends`. -/
def writeFriend (buffer : Bytes) (friendPair : Int32 × Bytes) : Bytes :=
  writeString (writeInt32 buffer friendPair.1) friendPair.2

def encodeFriendListResponse (resp : FriendListResponse) : Bytes :=
  let buffer := writeUint16 [] resp.errorCode.toUInt16
  let buffer := writeUint32 buffer (UInt32.ofNat resp.friends.length)
  resp.friends.foldl writeFriend buffer

def encodeAddFriendResponse (resp : AddFriendResponse) : Bytes :=
  writeUint16 [] resp.errorCode.toUInt16

def encodeRegisterResponse (resp : RegisterResponse) : Bytes :=
  let buffer := writeUint16 [] resp.errorCode.toUInt16
  writeInt32 buffer resp.userId

def encodeSecurityQuestionResponse (resp : SecurityQuestionResponse) : Bytes :=
  let buffer := writeUint16 [] resp.errorCode.toUInt16
  writeString buffer resp.question

def encodeResetPasswordResponse (resp : ResetPasswordResponse) : Bytes :=
  writeUint16 [] resp.errorCode.toUInt16

def encodeVersionCheckResponse (resp : VersionCheckResponse) : Bytes :=
  let buffer := writeUint16 [] resp.errorCode.toUInt16
  let buffer := writeInt32 buffer resp.serverVersion
  let buffer := writeString buffer resp.updateUrl
  writeString buffer resp.updateDesc

end QQChat.Server
