import QQChat.Wire.Bytes

/-!
# The message vocabulary of `protocol_codec.hpp`

The server and the client each have their own `protocol_codec.hpp`; the
declarations below are those the two agree on member for member, so one Lean
type stands for both. What only one side has (`Packet`, the request structs;
the client's `FriendInfo`) is marked.

`CommandCode` and `ErrorCode` are C++ scoped enums with underlying type
`uint16_t`. Both codecs `static_cast` a received 16-bit word to them without a
check, so a value need not be an enumerator: the model keeps the word and names
the enumerators as constants. `ErrorCode::INVALID_REQUEST` is missing from the
client's enum, whose values still range over all 16-bit words.
-/

namespace QQChat

/-- `enum class CommandCode : uint16_t`. -/
structure CommandCode where
  toUInt16 : UInt16
  deriving DecidableEq, Repr

namespace CommandCode

def loginReq : CommandCode := ⟨0x0001⟩
def loginResp : CommandCode := ⟨0x0002⟩
def messageReq : CommandCode := ⟨0x0003⟩
def messageResp : CommandCode := ⟨0x0004⟩
def messageNotify : CommandCode := ⟨0x0005⟩
def friendListReq : CommandCode := ⟨0x0006⟩
def friendListResp : CommandCode := ⟨0x0007⟩
def addFriendReq : CommandCode := ⟨0x0008⟩
def addFriendResp : CommandCode := ⟨0x0009⟩
def registerReq : CommandCode := ⟨0x000A⟩
def registerResp : CommandCode := ⟨0x000B⟩
def securityQuestionReq : CommandCode := ⟨0x000C⟩
def securityQuestionResp : CommandCode := ⟨0x000D⟩
def resetPasswordReq : CommandCode := ⟨0x000E⟩
def resetPasswordResp : CommandCode := ⟨0x000F⟩
def versionCheckReq : CommandCode := ⟨0x0010⟩
def versionCheckResp : CommandCode := ⟨0x0011⟩

end CommandCode

/-- `enum class ErrorCode : uint16_t`. -/
structure ErrorCode where
  toUInt16 : UInt16
  deriving DecidableEq, Repr

namespace ErrorCode

def success : ErrorCode := ⟨0x0000⟩
def userNotFound : ErrorCode := ⟨0x0001⟩
def wrongPassword : ErrorCode := ⟨0x0002⟩
def userAlreadyOnline : ErrorCode := ⟨0x0003⟩
def userOffline : ErrorCode := ⟨0x0004⟩
def protocolError : ErrorCode := ⟨0x0005⟩
def databaseError : ErrorCode := ⟨0x0006⟩
def friendRequestExists : ErrorCode := ⟨0x0007⟩
def cannotAddSelf : ErrorCode := ⟨0x0008⟩
def usernameExists : ErrorCode := ⟨0x0009⟩
def invalidAnswer : ErrorCode := ⟨0x000A⟩
def securityQuestionNotSet : ErrorCode := ⟨0x000B⟩
def invalidRequest : ErrorCode := ⟨0x000C⟩

end ErrorCode

/-! ## Frames -/

/-- `ProtocolCodec::VERSION`. -/
def VERSION : UInt8 := 1

/-- `ProtocolCodec::HEADER_SIZE`: version, command, body length. -/
def HEADER_SIZE : Nat := 7

/-- `struct Packet` (server only). -/
structure Packet where
  version : UInt8
  command : CommandCode
  data : Bytes
  deriving DecidableEq, Repr

/-! ## Requests (server only) -/

structure LoginRequest where
  username : Bytes
  password : Bytes
  deriving DecidableEq, Repr

structure MessageRequest where
  toId : Int32
  content : Bytes
  deriving DecidableEq, Repr

structure AddFriendRequest where
  userId : Int32
  friendId : Int32
  deriving DecidableEq, Repr

structure RegisterRequest where
  username : Bytes
  password : Bytes
  securityQuestion : Bytes
  securityAnswer : Bytes
  deriving DecidableEq, Repr

structure SecurityQuestionRequest where
  username : Bytes
  deriving DecidableEq, Repr

structure ResetPasswordRequest where
  username : Bytes
  newPassword : Bytes
  securityAnswer : Bytes
  deriving DecidableEq, Repr

structure VersionCheckRequest where
  clientVersion : Int32
  deriving DecidableEq, Repr

/-! ## Responses and notifications -/

structure LoginResponse where
  errorCode : ErrorCode
  userId : Int32
  username : Bytes
  deriving DecidableEq, Repr

/-- Server only: the client has no decoder for it. -/
structure MessageResponse where
  errorCode : ErrorCode
  msgId : Int32
  deriving DecidableEq, Repr

structure MessageNotify where
  fromId : Int32
  content : Bytes
  timestamp : Int64
  deriving DecidableEq, Repr

/-- Server only; the client decodes the list straight into `FriendInfo`s. -/
structure FriendListResponse where
  errorCode : ErrorCode
  friends : List (Int32 × Bytes)
  deriving DecidableEq, Repr

/-- Client only. -/
structure FriendInfo where
  friendId : Int32
  friendName : Bytes
  deriving DecidableEq, Repr

/-- Server only: the client has no decoder for it. -/
structure AddFriendResponse where
  errorCode : ErrorCode
  deriving DecidableEq, Repr

structure RegisterResponse where
  errorCode : ErrorCode
  userId : Int32
  deriving DecidableEq, Repr

structure SecurityQuestionResponse where
  errorCode : ErrorCode
  question : Bytes
  deriving DecidableEq, Repr

structure ResetPasswordResponse where
  errorCode : ErrorCode
  deriving DecidableEq, Repr

structure VersionCheckResponse where
  errorCode : ErrorCode
  serverVersion : Int32
  updateUrl : Bytes
  updateDesc : Bytes
  deriving DecidableEq, Repr

end QQChat
