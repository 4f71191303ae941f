import QQChat.Client.Threads
import QQChat.Codec.Bijection
import QQChat.Codec.FriendList
import QQChat.Codec.OptionalTails

/-!
# `ChatClient::handle_packet`

The switch that hands a decoded response to the callback waiting for it. A callback is
`std::function` member, empty until a request stores one (`Slot`); what it is called
with is an `Invocation`.

Mirroring notes:
- `handlePacket` gives the calls in order. Its outer `none` is a decoder's read
  outside the packet.
- The scalars of a response are uninitialised when its decoder is called, which
  overwrites them; its strings and lists are empty.
- The error code is cast to `int`. `friend_list_callback_` is always called with 0:
  its decoder refuses every other code, so an error never reaches it
  (`handlePacket_friendList`). The other five pass on whatever came.
-/

namespace QQChat

open BigEndian

/-- `static_cast<int>(error_code)`. -/
def ErrorCode.toInt32 (errorCode : ErrorCode) : Int32 :=
  errorCode.toUInt16.toUInt32.toInt32

namespace Client

/-- A call of one of the callbacks. -/
inductive Invocation where
  | login (errorCode userId : Int32) (username : Bytes)
  | message (fromId : Int32) (content : Bytes) (timestamp : Int64)
  | friendList (errorCode : Int32) (friends : List (Int32 × Bytes))
  | register (errorCode userId : Int32)
  | securityQuestion (errorCode : Int32) (question : Bytes)
  | resetPassword (errorCode : Int32)
  | versionCheck (errorCode serverVersion : Int32) (updateUrl updateDesc : Bytes)
  deriving DecidableEq, Repr

namespace Invocation

def slot : Invocation → Slot
  | .login .. => .loginCallback
  | .message .. => .messageCallback
  | .friendList .. => .friendListCallback
  | .register .. => .registerCallback
  | .securityQuestion .. => .securityQuestionCallback
  | .resetPassword .. => .resetPasswordCallback
  | .versionCheck .. => .versionCheckCallback

/-- The callback's first argument, where that is an error code. -/
def errorCode : Invocation → Option Int32
  | .login errorCode .. => some errorCode
  | .message .. => none
  | .friendList errorCode _ => some errorCode
  | .register errorCode _ => some errorCode
  | .securityQuestion errorCode _ => some errorCode
  | .resetPassword errorCode => some errorCode
  | .versionCheck errorCode .. => some errorCode

end Invocation

/-- Which of the callback members are not empty. -/
abbrev Callbacks := Slot → Bool

namespace Callbacks

/-- `login_callback_ = callback` and its like, for a callback that is not empty. -/
def store (callbacks : Callbacks) (slot : Slot) : Callbacks :=
  Function.update callbacks slot true

/-- `if (callback) callback(..)`. -/
def invoke (callbacks : Callbacks) (invocation : Invocation) : List Invocation :=
  if callbacks invocation.slot then [invocation] else []

/-- The cases of the switch: the call that the decoded body leads to, or none if the
decoder returns `false` or there is no case for the command. -/
def invocation (command : CommandCode) (data : Bytes) : Access (Option Invocation) := do
  if command = .loginResp then
    let some resp ← decodeLoginResponse data ⟨.success, 0, []⟩ | return none
    return some (.login resp.errorCode.toInt32 resp.userId resp.username)
  else if command = .messageNotify then
    let some notify ← decodeMessageNotify data | return none
    return some (.message notify.fromId notify.content notify.timestamp)
  else if command = .friendListResp then
    let (true, friends) ← decodeFriendListResponse data [] | return none
    return some (.friendList 0 (friends.map fun f : FriendInfo => (f.friendId, f.friendName)))
  else if command = .registerResp then
    let some resp ← decodeRegisterResponse data | return none
    return some (.register resp.errorCode.toInt32 resp.userId)
  else if command = .securityQuestionResp then
    let some resp ← decodeSecurityQuestionResponse data ⟨.success, []⟩ | return none
    return some (.securityQuestion resp.errorCode.toInt32 resp.question)
  else if command = .resetPasswordResp then
    let some resp ← decodeResetPasswordResponse data | return none
    return some (.resetPassword resp.errorCode.toInt32)
  else if command = .versionCheckResp then
    let some resp ← decodeVersionCheckResponse data ⟨.success, 0, [], []⟩ | return none
    return some (.versionCheck resp.errorCode.toInt32 resp.serverVersion resp.updateUrl
      resp.updateDesc)
  else return none

def handlePacket (callbacks : Callbacks) (packet : Bytes) : Access (List Invocation) := do
  let some (command, data) ← decode packet | return []
  let some invocation ← invocation command data | return []
  return callbacks.invoke invocation

/-! ## What a response leads to -/

/-- A frame whose length fits is unframed, and its body decides. -/
theorem handlePacket_frame (callbacks : Callbacks) {command : CommandCode} {data : Bytes}
    {result : Option Invocation} (hlen : data.length < 2 ^ 32)
    (h : invocation command data = some result) :
    handlePacket callbacks (Server.encode { version := VERSION, command, data })
      = some (result.elim [] callbacks.invoke) := by
  unfold handlePacket
  rw [decode_frame, if_pos hlen]
  show (do
    let some invocation ← invocation command data | return []
    return callbacks.invoke invocation) = _
  rw [h]
  cases result <;> rfl

/-- One whose length has wrapped is dropped. -/
theorem handlePacket_frame_of_le (callbacks : Callbacks) {command : CommandCode} {data : Bytes}
    (hlen : 2 ^ 32 ≤ data.length) :
    handlePacket callbacks (Server.encode { version := VERSION, command, data }) = some [] := by
  unfold handlePacket
  rw [decode_frame, if_neg (Nat.not_lt.mpr hlen)]
  rfl

section

variable {data : Bytes} {errorCode : ErrorCode}

theorem invocation_login (h : Server.Carries data errorCode) (hlen : 8 ≤ data.length) :
    ∃ userId username, invocation .loginResp data
      = some (some (.login errorCode.toInt32 userId username)) := by
  obtain ⟨userId, huser, _⟩ := readInt32_of_le (show 2 + 4 ≤ data.length by omega)
  obtain ⟨username, offset, hname, _⟩ := readOptional_of_le (show 6 + 2 ≤ data.length by omega) []
  have hdecode : decodeLoginResponse data ⟨.success, 0, []⟩
      = some (some ⟨errorCode, userId, username⟩) := by
    unfold decodeLoginResponse
    simp only [if_neg (show ¬ data.length < 6 by omega), h.read, huser, Option.bind_eq_bind,
      Option.bind_some, if_pos (show 6 < data.length by omega), hname, Option.pure_def]
  refine ⟨userId, username, ?_⟩
  show (do
    let some resp ← decodeLoginResponse data ⟨.success, 0, []⟩ | return none
    return some (Invocation.login resp.errorCode.toInt32 resp.userId resp.username)) = _
  rw [hdecode]
  rfl

theorem invocation_register (h : Server.Carries data errorCode) (hlen : 6 ≤ data.length) :
    ∃ userId, invocation .registerResp data
      = some (some (.register errorCode.toInt32 userId)) := by
  obtain ⟨userId, huser, _⟩ := readInt32_of_le (show 2 + 4 ≤ data.length by omega)
  have hdecode : decodeRegisterResponse data = some (some ⟨errorCode, userId⟩) := by
    unfold decodeRegisterResponse
    simp only [if_neg (show ¬ data.length < 6 by omega), h.read, huser, Option.bind_eq_bind,
      Option.bind_some, Option.pure_def]
  refine ⟨userId, ?_⟩
  show (do
    let some resp ← decodeRegisterResponse data | return none
    return some (Invocation.register resp.errorCode.toInt32 resp.userId)) = _
  rw [hdecode]
  rfl

theorem invocation_securityQuestion (h : Server.Carries data errorCode) (hlen : 4 ≤ data.length) :
    ∃ question, invocation .securityQuestionResp data
      = some (some (.securityQuestion errorCode.toInt32 question)) := by
  obtain ⟨question, offset, hread, _⟩ := readOptional_of_le (show 2 + 2 ≤ data.length by omega) []
  have hdecode : decodeSecurityQuestionResponse data ⟨.success, []⟩
      = some (some ⟨errorCode, question⟩) := by
    unfold decodeSecurityQuestionResponse
    simp only [if_neg (show ¬ data.length < 2 by omega), h.read, Option.bind_eq_bind,
      Option.bind_some, if_pos (show 2 < data.length by omega), hread, Option.pure_def]
  refine ⟨question, ?_⟩
  show (do
    let some resp ← decodeSecurityQuestionResponse data ⟨.success, []⟩ | return none
    return some (Invocation.securityQuestion resp.errorCode.toInt32 resp.question)) = _
  rw [hdecode]
  rfl

theorem invocation_resetPassword (h : Server.Carries data errorCode) (hlen : 2 ≤ data.length) :
    invocation .resetPasswordResp data = some (some (.resetPassword errorCode.toInt32)) := by
  have hdecode : decodeResetPasswordResponse data = some (some ⟨errorCode⟩) := by
    unfold decodeResetPasswordResponse
    simp only [if_neg (show ¬ data.length < 2 by omega), h.read, Option.bind_eq_bind,
      Option.bind_some, Option.pure_def]
  show (do
    let some resp ← decodeResetPasswordResponse data | return none
    return some (Invocation.resetPassword resp.errorCode.toInt32)) = _
  rw [hdecode]
  rfl

theorem invocation_versionCheck (h : Server.Carries data errorCode) (hlen : 6 ≤ data.length) :
    ∃ serverVersion updateUrl updateDesc, invocation .versionCheckResp data
      = some (some (.versionCheck errorCode.toInt32 serverVersion updateUrl updateDesc)) := by
  obtain ⟨serverVersion, hversion, _⟩ := readInt32_of_le (show 2 + 4 ≤ data.length by omega)
  obtain ⟨url, offset, hurl, _⟩ := ite_readOptional data 6 []
  obtain ⟨desc, offset', hdesc, _⟩ := ite_readOptional data offset []
  have hdecode : decodeVersionCheckResponse data ⟨.success, 0, [], []⟩
      = some (some ⟨errorCode, serverVersion, url, desc⟩) := by
    unfold decodeVersionCheckResponse
    simp only [if_neg (show ¬ data.length < 6 by omega), h.read, hversion, hurl, hdesc,
      Option.bind_eq_bind, Option.bind_some]
    rfl
  refine ⟨serverVersion, url, desc, ?_⟩
  show (do
    let some resp ← decodeVersionCheckResponse data ⟨.success, 0, [], []⟩ | return none
    return some (Invocation.versionCheck resp.errorCode.toInt32 resp.serverVersion resp.updateUrl
      resp.updateDesc)) = _
  rw [hdecode]
  rfl

end

/-! ### The friend list -/

theorem errorCode_of_carries {data : Bytes} {errorCode : ErrorCode}
    (h : Server.Carries data errorCode) : FriendList.errorCode data = errorCode := by
  obtain ⟨rest, rfl⟩ := h
  exact FriendList.errorCode_append errorCode rest

/-- A list that came with SUCCESS is handed over with the code 0. -/
theorem invocation_friendList {data : Bytes} (h : Server.Carries data .success)
    (hlen : 6 ≤ data.length) :
    ∃ friends, invocation .friendListResp data
      = some (some (.friendList ErrorCode.success.toInt32 friends)) := by
  have haccepted : ¬ FriendList.Refused data :=
    not_or_intro (Nat.not_lt.mpr hlen) (not_not_intro (errorCode_of_carries h))
  obtain ⟨friends, hdecode⟩ : ∃ friends, decodeFriendListResponse data [] = some (true, friends) :=
    ⟨_, (decodeFriendListResponse_eq data []).trans (congrArg some (if_neg haccepted))⟩
  refine ⟨friends.map fun f : FriendInfo => (f.friendId, f.friendName), ?_⟩
  show (do
    let (true, friends) ← decodeFriendListResponse data [] | return none
    return some (Invocation.friendList 0
      (friends.map fun f : FriendInfo => (f.friendId, f.friendName)))) = _
  rw [hdecode]
  rfl

/-- With any other code, nothing is. -/
theorem invocation_friendList_error {data : Bytes} {errorCode : ErrorCode}
    (h : Server.Carries data errorCode) (herror : errorCode ≠ .success) :
    invocation .friendListResp data = some none := by
  have hrefused : FriendList.Refused data := Or.inr ((errorCode_of_carries h).symm ▸ herror)
  show (do
    let (true, friends) ← decodeFriendListResponse data [] | return none
    return some (Invocation.friendList 0
      (friends.map fun f : FriendInfo => (f.friendId, f.friendName)))) = _
  rw [decodeFriendListResponse_eq, if_pos hrefused]
  rfl

end Callbacks

end Client

end QQChat
