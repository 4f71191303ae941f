import QQChat.Client.Callbacks
import QQChat.Server.Answers

/-!
# Whether an answer reaches its callback

A request with a callback goes to the server, the handler for it answers once
(`Server.Answers`), and the client's `handle_packet` is to call the callback with the
error code of the answer. `Reaches` is that, end to end: from the handler's state
through the response encoder and the two frame codecs to the call.

`reaches_iff` settles it for the six requests, in every state of the server and
whatever its database answers. Two things can go wrong: the answer is too long for the
32 bits of its frame, and the answer to a friend list request is an error, which the
client's decoder takes for a malformed response.
-/

namespace QQChat

open Server ChatServer Client

variable {δ : Type}

/-- The callback that a request stores, for the six members that take one. -/
def Request.slot : Request → Option Slot
  | .login _ => some .loginCallback
  | .message _ => none
  | .friendList => some .friendListCallback
  | .addFriend _ => none
  | .register _ => some .registerCallback
  | .securityQuestion _ => some .securityQuestionCallback
  | .resetPassword _ => some .resetPasswordCallback
  | .versionCheck _ => some .versionCheckCallback

/-- The handler passed one buffer to `send`, on the connection of the request, and
`handle_packet` calls the callback in `slot` for it and no other, once, with the error
code that the buffer carries. -/
def Reaches (callbacks : Callbacks) (slot : Slot) (c : ConnId) (s s' : ChatServer δ) : Prop :=
  ∃ answer errorCode invocation, passedToSend s s' = [(c, answer)]
    ∧ errorCodeOf answer = some errorCode
    ∧ (callbacks.store slot).handlePacket answer = some [invocation]
    ∧ invocation.slot = slot ∧ invocation.errorCode = some errorCode.toInt32

/-- What is asked of the server's state for the answer to get through: that the user
is logged in and has a friend list to be sent, for a friend list request, and that what
the database answers fits a frame. -/
def Deliverable (w : World δ) (s : ChatServer δ) (c : ConnId) : Request → Prop
  | .login req => ∀ user, w.db.verifyUser s.db req.username req.password = some user →
      s.isUserOnline user.userId = false → 8 + user.username.length < 2 ^ 32
  | .friendList => (s.conn c).userId ≠ 0
      ∧ ∃ friends, w.db.getFriends s.db (s.conn c).userId = some friends
        ∧ 6 + friends.foldr (fun f n => 6 + f.friendName.length + n) 0 < 2 ^ 32
  | .securityQuestion req => ∀ question answerHash, req.username ≠ [] →
      w.db.getSecurityQuestion s.db req.username = some (question, answerHash) →
      4 + question.length < 2 ^ 32
  | _ => True

/-! ## From the buffer to the call -/

theorem passedToSend_sendResponse {s t : ChatServer δ} (h : t.posted = s.posted) (c : ConnId)
    (command : CommandCode) (data : Bytes) :
    passedToSend s (t.sendResponse c command data)
      = [(c, encode { version := VERSION, command, data })] := by
  refine passedToSend_eq ?_
  rw [← h]
  rfl

/-- A body that leads to the right call reaches it if its frame does. -/
theorem reaches_iff_of_invocation {callbacks : Callbacks} {slot : Slot} {c : ConnId}
    {s t : ChatServer δ} {command : CommandCode} {data : Bytes} {errorCode : ErrorCode}
    {invocation : Invocation} (hposted : t.posted = s.posted) (hcarries : Carries data errorCode)
    (h : Callbacks.invocation command data = some (some invocation))
    (hslot : invocation.slot = slot) (herror : invocation.errorCode = some errorCode.toInt32) :
    Reaches callbacks slot c s (t.sendResponse c command data) ↔ data.length < 2 ^ 32 := by
  have hpassed := passedToSend_sendResponse hposted c command data
  constructor
  · rintro ⟨answer, code, inv, hanswer, _, hcall, _⟩
    rw [hpassed] at hanswer
    cases hanswer
    refine Nat.lt_of_not_le fun hle => ?_
    rw [Callbacks.handlePacket_frame_of_le _ hle] at hcall
    cases hcall
  · intro hlen
    refine ⟨_, errorCode, invocation, hpassed, errorCodeOf_encode hcarries, ?_, hslot, herror⟩
    rw [Callbacks.handlePacket_frame _ hlen h]
    have hset : (callbacks.store slot) invocation.slot = true := by
      rw [hslot]
      exact Function.update_self ..
    exact congrArg some (if_pos hset)

/-- A body that leads to no call does not reach any. -/
theorem not_reaches_of_invocation {callbacks : Callbacks} {slot : Slot} {c : ConnId}
    {s t : ChatServer δ} {command : CommandCode} {data : Bytes} (hposted : t.posted = s.posted)
    (h : Callbacks.invocation command data = some none) :
    ¬ Reaches callbacks slot c s (t.sendResponse c command data) := by
  rintro ⟨answer, code, inv, hanswer, _, hcall, _⟩
  rw [passedToSend_sendResponse hposted c command data] at hanswer
  cases hanswer
  by_cases hlen : data.length < 2 ^ 32
  · rw [Callbacks.handlePacket_frame _ hlen h] at hcall
    cases hcall
  · rw [Callbacks.handlePacket_frame_of_le _ (Nat.le_of_not_lt hlen)] at hcall
    cases hcall

/-! ## The six requests -/

section

variable (callbacks : Callbacks) (w : World δ) (s : ChatServer δ) (c : ConnId)

theorem length_encodeLoginResponse (resp : LoginResponse) :
    (encodeLoginResponse resp).length = 8 + resp.username.length := by
  rw [encodeLoginResponse_eq]
  simp only [List.length_append, BigEndian.length_toBytes, length_field]
  omega

/-- A login response reaches its callback if its name fits. -/
theorem reaches_loginResponse {t : ChatServer δ} (hposted : t.posted = s.posted)
    (resp : LoginResponse) :
    Reaches callbacks .loginCallback c s (t.sendResponse c .loginResp (encodeLoginResponse resp))
      ↔ 8 + resp.username.length < 2 ^ 32 := by
  have hlen := length_encodeLoginResponse resp
  obtain ⟨userId, username, hinv⟩ :=
    Callbacks.invocation_login (carries_loginResponse resp) (by omega)
  rw [← hlen]
  exact reaches_iff_of_invocation hposted (carries_loginResponse resp) hinv rfl rfl

theorem posted_safeCommand (command : CacheCommand) :
    (safeCommand w s command).posted = s.posted :=
  (Passed.safeCommand w s command).posted.trans (List.append_nil _)

theorem handleLogin_reaches_iff (req : LoginRequest) :
    Reaches callbacks .loginCallback c s (handleLogin w s c req)
      ↔ Deliverable w s c (.login req) := by
  unfold Deliverable
  dsimp only [handleLogin]
  split
  next hnone =>
    rw [reaches_loginResponse callbacks s c rfl]
    refine iff_of_true (by decide) fun user huser => ?_
    rw [hnone] at huser
    cases huser
  next user huser =>
    split
    next honline =>
      rw [reaches_loginResponse callbacks s c rfl]
      refine iff_of_true (by decide) fun user' huser' hoffline => ?_
      cases huser.symm.trans huser'
      rw [honline] at hoffline
      cases hoffline
    next honline =>
      rw [reaches_loginResponse callbacks s c (by rw [posted_safeCommand, posted_safeCommand]; rfl)]
      constructor
      · intro hfits user' huser' _
        cases huser.symm.trans huser'
        exact hfits
      · intro h
        exact h user huser (Bool.eq_false_iff.mpr honline)

theorem length_flatMap_friendBytes (pairs : List (Int32 × Bytes)) :
    (pairs.flatMap friendBytes).length = pairs.foldr (fun f n => 6 + f.2.length + n) 0 := by
  induction pairs with
  | nil => rfl
  | cons f pairs ih =>
    rw [List.flatMap_cons, List.length_append, ih, List.foldr_cons, friendBytes,
      List.length_append, BigEndian.length_toBytes, length_field]
    omega

theorem length_encodeFriendListResponse (resp : FriendListResponse) :
    (encodeFriendListResponse resp).length
      = 6 + resp.friends.foldr (fun f n => 6 + f.2.length + n) 0 := by
  rw [encodeFriendListResponse_eq]
  simp only [List.length_append, BigEndian.length_toBytes, length_flatMap_friendBytes]
  omega

/-- A friend list request is answered with a list, or its callback is not called. -/
theorem handleFriendList_reaches_iff :
    Reaches callbacks .friendListCallback c s (handleFriendList w s c)
      ↔ Deliverable w s c .friendList := by
  have hrefused : ∀ errorCode : ErrorCode, errorCode ≠ .success →
      ¬ Reaches callbacks .friendListCallback c s (s.sendResponse c .friendListResp
        (encodeFriendListResponse { errorCode, friends := [] })) := by
    intro errorCode herror
    refine not_reaches_of_invocation rfl ?_
    exact Callbacks.invocation_friendList_error (carries_friendListResponse _) herror
  unfold Deliverable
  dsimp only [handleFriendList]
  split
  next hguest => exact iff_of_false (hrefused _ (by decide)) fun h => h.1 hguest
  next huser =>
    split
    next hnone =>
      refine iff_of_false (hrefused _ (by decide)) ?_
      rintro ⟨_, friends, hsome, _⟩
      rw [hnone] at hsome
      cases hsome
    next friends hfriends =>
      generalize hresp : ({ errorCode := .success, friends := friends.map fun f =>
        (f.friendId, f.friendName) } : FriendListResponse) = resp
      have hcode : resp.errorCode = .success := by rw [← hresp]
      have hcarries := carries_friendListResponse resp
      have hlen : (encodeFriendListResponse resp).length
          = 6 + friends.foldr (fun f n => 6 + f.friendName.length + n) 0 := by
        rw [length_encodeFriendListResponse, ← hresp, List.foldr_map]
      rw [hcode] at hcarries
      obtain ⟨_, hinv⟩ := Callbacks.invocation_friendList hcarries (by omega)
      refine (reaches_iff_of_invocation rfl hcarries hinv rfl rfl).trans ?_
      rw [hlen]
      constructor
      · intro hfits
        exact ⟨huser, friends, hfriends, hfits⟩
      · rintro ⟨_, friends', hfriends', hfits⟩
        cases hfriends.symm.trans hfriends'
        exact hfits

theorem reaches_registerResponse {t : ChatServer δ} (hposted : t.posted = s.posted)
    (resp : RegisterResponse) :
    Reaches callbacks .registerCallback c s
      (t.sendResponse c .registerResp (encodeRegisterResponse resp)) := by
  have hlen : (encodeRegisterResponse resp).length = 6 := by
    rw [encodeRegisterResponse_eq, List.length_append, BigEndian.length_toBytes,
      BigEndian.length_toBytes]
  obtain ⟨userId, hinv⟩ :=
    Callbacks.invocation_register (carries_registerResponse resp) (Nat.le_of_eq hlen.symm)
  refine (reaches_iff_of_invocation hposted (carries_registerResponse resp) hinv rfl rfl).mpr ?_
  rw [hlen]
  decide

theorem handleRegister_reaches (req : RegisterRequest) :
    Reaches callbacks .registerCallback c s (handleRegister w s c req) := by
  dsimp only [handleRegister]
  split
  · exact reaches_registerResponse callbacks s c rfl _
  split
  · exact reaches_registerResponse callbacks s c rfl _
  split <;> exact reaches_registerResponse callbacks s c rfl _

theorem reaches_securityQuestionResponse (resp : SecurityQuestionResponse) :
    Reaches callbacks .securityQuestionCallback c s
        (s.sendResponse c .securityQuestionResp (encodeSecurityQuestionResponse resp))
      ↔ 4 + resp.question.length < 2 ^ 32 := by
  have hlen : (encodeSecurityQuestionResponse resp).length = 4 + resp.question.length := by
    rw [encodeSecurityQuestionResponse_eq, List.length_append, BigEndian.length_toBytes,
      length_field, ← Nat.add_assoc]
  obtain ⟨question, hinv⟩ :=
    Callbacks.invocation_securityQuestion (carries_securityQuestionResponse resp) (by omega)
  rw [← hlen]
  exact reaches_iff_of_invocation rfl (carries_securityQuestionResponse resp) hinv rfl rfl

theorem handleSecurityQuestion_reaches_iff (req : SecurityQuestionRequest) :
    Reaches callbacks .securityQuestionCallback c s (handleSecurityQuestion w s c req)
      ↔ Deliverable w s c (.securityQuestion req) := by
  unfold Deliverable
  dsimp only [handleSecurityQuestion]
  split
  next hempty =>
    rw [reaches_securityQuestionResponse]
    exact iff_of_true (by decide) fun _ _ hne => absurd hempty hne
  next hne =>
    split
    next hnone =>
      rw [reaches_securityQuestionResponse]
      refine iff_of_true (by decide) fun question answerHash _ hsome => ?_
      rw [hnone] at hsome
      cases hsome
    next question answerHash hsome =>
      rw [reaches_securityQuestionResponse]
      constructor
      · intro hfits question' answerHash' _ hsome'
        cases hsome.symm.trans hsome'
        exact hfits
      · intro h
        exact h question answerHash hne hsome

theorem reaches_resetPasswordResponse {t : ChatServer δ} (hposted : t.posted = s.posted)
    (resp : ResetPasswordResponse) :
    Reaches callbacks .resetPasswordCallback c s
      (t.sendResponse c .resetPasswordResp (encodeResetPasswordResponse resp)) := by
  have hlen : (encodeResetPasswordResponse resp).length = 2 := by
    rw [encodeResetPasswordResponse_eq, BigEndian.length_toBytes]
  have hinv := Callbacks.invocation_resetPassword (carries_resetPasswordResponse resp)
    (Nat.le_of_eq hlen.symm)
  have hcarries := carries_resetPasswordResponse resp
  refine (reaches_iff_of_invocation hposted hcarries hinv rfl rfl).mpr ?_
  rw [hlen]
  decide

theorem handleResetPassword_reaches (req : ResetPasswordRequest) :
    Reaches callbacks .resetPasswordCallback c s (handleResetPassword w s c req) := by
  dsimp only [handleResetPassword]
  split
  · exact reaches_resetPasswordResponse callbacks s c rfl _
  split
  · exact reaches_resetPasswordResponse callbacks s c rfl _
  split
  · exact reaches_resetPasswordResponse callbacks s c rfl _
  split <;> exact reaches_resetPasswordResponse callbacks s c rfl _

theorem reaches_versionCheckResponse (resp : VersionCheckResponse)
    (htexts : 10 + (resp.updateUrl.length + resp.updateDesc.length) < 2 ^ 32) :
    Reaches callbacks .versionCheckCallback c s
      (s.sendResponse c .versionCheckResp (encodeVersionCheckResponse resp)) := by
  have hlen : (encodeVersionCheckResponse resp).length
      = 10 + (resp.updateUrl.length + resp.updateDesc.length) := by
    rw [encodeVersionCheckResponse_eq]
    simp only [List.length_append, BigEndian.length_toBytes, length_field]
    omega
  obtain ⟨_, _, _, hinv⟩ :=
    Callbacks.invocation_versionCheck (carries_versionCheckResponse resp) (by omega)
  refine (reaches_iff_of_invocation rfl (carries_versionCheckResponse resp) hinv rfl rfl).mpr ?_
  rw [hlen]
  exact htexts

theorem handleVersionCheck_reaches (req : VersionCheckRequest) :
    Reaches callbacks .versionCheckCallback c s (handleVersionCheck s c req) := by
  refine reaches_versionCheckResponse callbacks s c _ ?_
  decide +kernel

end

/-- **When an answer reaches its callback.** Whatever the state of the server, the
outcome of its database calls and the callbacks already stored, the answer to a request
with a callback leads to exactly one call of that callback, with exactly the error code
that was sent, if and only if `Deliverable`. -/
theorem reaches_iff (callbacks : Callbacks) (w : World δ) (s : ChatServer δ) (c : ConnId)
    {r : Request} {slot : Slot} (hslot : r.slot = some slot) :
    Reaches callbacks slot c s (handleRequest w s c r) ↔ Deliverable w s c r := by
  cases r with
  | login req =>
    cases hslot
    exact handleLogin_reaches_iff callbacks w s c req
  | message req => cases hslot
  | friendList =>
    cases hslot
    exact handleFriendList_reaches_iff callbacks w s c
  | addFriend friendId => cases hslot
  | register req =>
    cases hslot
    exact iff_of_true (handleRegister_reaches callbacks w s c req) trivial
  | securityQuestion req =>
    cases hslot
    exact handleSecurityQuestion_reaches_iff callbacks w s c req
  | resetPassword req =>
    cases hslot
    exact iff_of_true (handleResetPassword_reaches callbacks w s c req) trivial
  | versionCheck req =>
    cases hslot
    exact iff_of_true (handleVersionCheck_reaches callbacks s c req) trivial

/-- The login of an unknown user is refused, and the callback hears of it. -/
theorem reaches_iff_unknown :
    Reaches (fun _ => false) .loginCallback 1 (.init ())
      (handleRequest twoAccounts (.init ()) 1 (.login ⟨[99], [112]⟩)) := by
  refine (reaches_iff (fun _ => false) twoAccounts (.init ()) 1
    (r := .login ⟨[99], [112]⟩) rfl).mpr fun user huser => ?_
  cases huser

/-- A friend list request on a connection that has not logged in is answered with
PROTOCOL_ERROR, and `handle_packet` calls nothing. -/
theorem friendList_error_swallowed :
    ((passedToSend (.init ()) (handleRequest twoAccounts (.init ()) 1 .friendList)).map fun p =>
        (p.1, errorCodeOf p.2,
          (Callbacks.store (fun _ => false) .friendListCallback).handlePacket p.2))
      = [(1, some .protocolError, some [])]
    ∧ ¬ Reaches (fun _ => false) .friendListCallback 1 (.init ())
      (handleRequest twoAccounts (.init ()) 1 .friendList) := by
  refine ⟨by decide, fun h => ?_⟩
  exact ((handleFriendList_reaches_iff _ twoAccounts _ _).mp h).1 rfl

end QQChat
