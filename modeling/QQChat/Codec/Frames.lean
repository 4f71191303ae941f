import QQChat.Codec.Requests
import QQChat.Codec.Responses

/-!
# What a frame shows

The members of a frame that can be read off its bytes without decoding the rest: the
command, the error code that every response starts with, and the user that two of
them name next. Whoever looks at what the server has sent looks at these.
-/

namespace QQChat.Server

open BigEndian

/-- The command in a frame. -/
def commandOf (data : Bytes) : Access CommandCode :=
  (readUint16 data 1).map CommandCode.mk

/-- The error code a response's payload starts with. -/
def errorCodeOf (data : Bytes) : Access ErrorCode :=
  (readUint16 data HEADER_SIZE).map ErrorCode.mk

/-- The user whom a response of this kind names, if it is SUCCESS. -/
def userIdOf (command : CommandCode) (data : Bytes) : Option Int32 :=
  if commandOf data = some command ∧ errorCodeOf data = some .success then
    readInt32 data (HEADER_SIZE + 2)
  else none

/-- The payload starts with the error code. -/
def Carries (data : Bytes) (errorCode : ErrorCode) : Prop :=
  ∃ rest, data = toBytes 2 errorCode.toUInt16.toNat ++ rest

theorem Carries.read {data : Bytes} {errorCode : ErrorCode} (h : Carries data errorCode) :
    readUint16 data 0 = some errorCode.toUInt16 := by
  obtain ⟨rest, hrest⟩ := h
  have hdrop : data.drop 0 = toBytes 2 errorCode.toUInt16.toNat ++ rest := hrest
  rw [readUint16_of_drop hdrop, UInt16.ofNat_toNat]

/-- The two frame codecs write alike. -/
theorem encode_eq_client (command : CommandCode) (data : Bytes) :
    encode { version := VERSION, command, data } = Client.encode command data :=
  rfl

theorem commandOf_encode (command : CommandCode) (data : Bytes) :
    commandOf (encode { version := VERSION, command, data }) = some command := by
  unfold commandOf
  rw [encode_eq_client, Client.command_encode]
  rfl

theorem errorCodeOf_encode {command : CommandCode} {data : Bytes} {errorCode : ErrorCode}
    (h : Carries data errorCode) :
    errorCodeOf (encode { version := VERSION, command, data }) = some errorCode := by
  obtain ⟨rest, rfl⟩ := h
  have hread : readUint16 (Client.encode command (toBytes 2 errorCode.toUInt16.toNat ++ rest))
      HEADER_SIZE = some errorCode.toUInt16 := by
    rw [readUint16_of_drop (Client.drop_encode command _), UInt16.ofNat_toNat]
  unfold errorCodeOf
  rw [encode_eq_client, hread]
  rfl

theorem userIdOf_encode {command : CommandCode} {data rest : Bytes} {errorCode : ErrorCode}
    {userId : Int32} (h : data = toBytes 2 errorCode.toUInt16.toNat
      ++ (toBytes 4 userId.toUInt32.toNat ++ rest)) :
    userIdOf command (encode { version := VERSION, command, data })
      = if errorCode = .success then some userId else none := by
  have hcarries : Carries data errorCode := ⟨_, h⟩
  have hdrop : (Client.encode command data).drop HEADER_SIZE = toBytes 2 errorCode.toUInt16.toNat
      ++ (toBytes 4 userId.toUInt32.toNat ++ rest) := by
    rw [Client.drop_encode, h]
  have hread := readInt32_of_drop (drop_of_drop hdrop)
  rw [length_toBytes] at hread
  unfold userIdOf
  rw [commandOf_encode, errorCodeOf_encode hcarries, encode_eq_client, hread]
  simp only [true_and, Option.some_inj]

/-! ## The responses -/

theorem carries_loginResponse (resp : LoginResponse) :
    Carries (encodeLoginResponse resp) resp.errorCode :=
  ⟨_, encodeLoginResponse_eq resp⟩

theorem carries_messageResponse (resp : MessageResponse) :
    Carries (encodeMessageResponse resp) resp.errorCode := by
  refine ⟨toBytes 4 resp.msgId.toUInt32.toNat, ?_⟩
  simp only [encodeMessageResponse, writeUint16_eq, writeInt32_eq, List.nil_append]

theorem carries_friendListResponse (resp : FriendListResponse) :
    Carries (encodeFriendListResponse resp) resp.errorCode :=
  ⟨_, encodeFriendListResponse_eq resp⟩

theorem carries_addFriendResponse (resp : AddFriendResponse) :
    Carries (encodeAddFriendResponse resp) resp.errorCode := by
  refine ⟨[], ?_⟩
  simp only [encodeAddFriendResponse, writeUint16_eq, List.nil_append, List.append_nil]

theorem carries_registerResponse (resp : RegisterResponse) :
    Carries (encodeRegisterResponse resp) resp.errorCode :=
  ⟨_, encodeRegisterResponse_eq resp⟩

theorem carries_securityQuestionResponse (resp : SecurityQuestionResponse) :
    Carries (encodeSecurityQuestionResponse resp) resp.errorCode :=
  ⟨_, encodeSecurityQuestionResponse_eq resp⟩

theorem carries_resetPasswordResponse (resp : ResetPasswordResponse) :
    Carries (encodeResetPasswordResponse resp) resp.errorCode :=
  ⟨[], (encodeResetPasswordResponse_eq resp).trans (List.append_nil _).symm⟩

theorem carries_versionCheckResponse (resp : VersionCheckResponse) :
    Carries (encodeVersionCheckResponse resp) resp.errorCode :=
  ⟨_, encodeVersionCheckResponse_eq resp⟩

end QQChat.Server
