import QQChat.Wire.Protocol

/-!
# The client's codec

`android/app/src/main/cpp/protocol_codec.cpp`, function by function: it encodes
requests (already framed) and decodes responses.

Mirroring notes:
- A decoder takes the out-parameter's value on entry, because the optional
  tails leave a field as it was when the tail is missing; its scalars are
  uninitialised in C++ and every decoder overwrites them before it succeeds.
- `readOptional` is the block an optional string is read by, after the guard
  that decides whether to try at all. The guards differ: `decode_login_response`
  and `decode_security_question_response` ask for one more byte, which does not
  cover the two-byte length they then read; `decode_version_check_response`
  asks for two.
- `decode_friend_list_response` fills a vector that may already hold elements
  and returns `false` only before touching it, so its answer is a pair.
-/

namespace QQChat.Client

/-! ## Frames -/

def encode (command : CommandCode) (data : Bytes) : Bytes :=
  let buffer := [VERSION]
  let buffer := writeUint16 buffer command.toUInt16
  let buffer := writeUint32 buffer (UInt32.ofNat data.length)
  buffer ++ data

/-- The version byte is not looked at. -/
def decode (buffer : Bytes) : Access (Option (CommandCode × Bytes)) := do
  if buffer.length < HEADER_SIZE then return none
  let cmd ← readUint16 buffer 1
  let length ← readUint32 buffer 3
  if buffer.length ≠ HEADER_SIZE + length.toNat then return none
  return some (⟨cmd⟩, buffer.drop HEADER_SIZE)

/-! ## Encoding requests -/

def encodeLoginRequest (username password : Bytes) : Bytes :=
  let data := writeString [] username
  let data := writeString data password
  encode .loginReq data

def encodeMessageRequest (toId : Int32) (content : Bytes) : Bytes :=
  let data := writeInt32 [] toId
  let data := writeUint32 data (UInt32.ofNat content.length)
  let data := data ++ content
  encode .messageReq data

/-- The body is empty: the server knows the user from the connection. -/
def encodeFriendListRequest : Bytes :=
  encode .friendListReq []

def encodeAddFriendRequest (friendId : Int32) : Bytes :=
  let data := writeInt32 [] friendId
  encode .addFriendReq data

def encodeRegisterRequest (username password securityQuestion securityAnswer : Bytes) : Bytes :=
  let data := writeString [] username
  let data := writeString data password
  let data := writeString data securityQuestion
  let data := writeString data securityAnswer
  encode .registerReq data

def encodeSecurityQuestionRequest (username : Bytes) : Bytes :=
  let data := writeString [] username
  encode .securityQuestionReq data

def encodeResetPasswordRequest (username newPassword securityAnswer : Bytes) : Bytes :=
  let data := writeString [] username
  let data := writeString data newPassword
  let data := writeString data securityAnswer
  encode .resetPasswordReq data

def encodeVersionCheckRequest (clientVersion : Int32) : Bytes :=
  let data := writeInt32 [] clientVersion
  encode .versionCheckReq data

/-! ## Decoding responses -/

/-- The block an optional string is read by: the field's new value and the
offset after what was consumed. The offset has moved past the length even when
the body does not fit and the field stays as it was. -/
def readOptional (data : Bytes) (offset : Nat) (field : Bytes) : Access (Bytes × Nat) := do
  let len ← readUint16 data offset
  let offset := offset + 2
  if offset + len.toNat ≤ data.length then
    let str ← readString data offset len.toNat
    return (str, offset + len.toNat)
  else
    return (field, offset)

def decodeLoginResponse (data : Bytes) (resp : LoginResponse) :
    Access (Option LoginResponse) := do
  if data.length < 6 then return none
  let errorCode ← readUint16 data 0
  let userId ← readInt32 data 2
  if 6 < data.length then
    let (username, _) ← readOptional data 6 resp.username
    return some { errorCode := ⟨errorCode⟩, userId, username }
  else
    return some { errorCode := ⟨errorCode⟩, userId, username := resp.username }

/-- `8 + content_len` and `8 + content_len + 8` are computed in `uint32_t`. -/
def decodeMessageNotify (data : Bytes) : Access (Option MessageNotify) := do
  if data.length < 16 then return none
  let fromId ← readInt32 data 0
  let contentLen ← readUint32 data 4
  if (8 + contentLen + 8).toNat > data.length then return none
  let content ← readString data 8 contentLen.toNat
  let timestamp ← readInt64 data (8 + contentLen).toNat
  return some { fromId, content, timestamp }

/-- The `for (uint32_t i = 0; i < count; ++i)` loop with `count - i` rounds to
go; every `break` leaves the entries pushed so far. -/
def decodeFriends (data : Bytes) : Nat → Nat → List FriendInfo → Access (List FriendInfo)
  | 0, _, friends => return friends
  | rounds + 1, offset, friends => do
    if offset + 4 > data.length then return friends
    let friendId ← readInt32 data offset
    let offset := offset + 4
    if offset + 2 > data.length then return friends
    let nameLen ← readUint16 data offset
    let offset := offset + 2
    if offset + nameLen.toNat > data.length then return friends
    let friendName ← readString data offset nameLen.toNat
    decodeFriends data rounds (offset + nameLen.toNat) (friends ++ [{ friendId, friendName }])

def decodeFriendListResponse (data : Bytes) (friends : List FriendInfo) :
    Access (Bool × List FriendInfo) := do
  if data.length < 6 then return (false, friends)
  let errorCode ← readUint16 data 0
  if (⟨errorCode⟩ : ErrorCode) ≠ .success then return (false, friends)
  let count ← readUint32 data 2
  let friends ← decodeFriends data count.toNat 6 friends
  return (true, friends)

def decodeRegisterResponse (data : Bytes) : Access (Option RegisterResponse) := do
  if data.length < 6 then return none
  let errorCode ← readUint16 data 0
  let userId ← readInt32 data 2
  return some { errorCode := ⟨errorCode⟩, userId }

def decodeSecurityQuestionResponse (data : Bytes) (resp : SecurityQuestionResponse) :
    Access (Option SecurityQuestionResponse) := do
  if data.length < 2 then return none
  let errorCode ← readUint16 data 0
  if 2 < data.length then
    let (question, _) ← readOptional data 2 resp.question
    return some { errorCode := ⟨errorCode⟩, question }
  else
    return some { errorCode := ⟨errorCode⟩, question := resp.question }

def decodeResetPasswordResponse (data : Bytes) : Access (Option ResetPasswordResponse) := do
  if data.length < 2 then return none
  let errorCode ← readUint16 data 0
  return some { errorCode := ⟨errorCode⟩ }

def decodeVersionCheckResponse (data : Bytes) (resp : VersionCheckResponse) :
    Access (Option VersionCheckResponse) := do
  if data.length < 6 then return none
  let errorCode ← readUint16 data 0
  let serverVersion ← readInt32 data 2
  let (updateUrl, offset) ←
    if 6 + 2 ≤ data.length then readOptional data 6 resp.updateUrl else pure (resp.updateUrl, 6)
  let (updateDesc, _) ←
    if offset + 2 ≤ data.length then readOptional data offset resp.updateDesc
    else pure (resp.updateDesc, offset)
  return some { errorCode := ⟨errorCode⟩, serverVersion, updateUrl, updateDesc }

end QQChat.Client
