import QQChat.Codec.Requests
import QQChat.Server.State

/-!
# The request handlers

`message_handler.cpp`, handler by handler. Each takes the environment of the
callback it runs in, the server, the connection the packet came on and the
decoded request, and returns the server.

Mirroring notes:
- Every handler answers through `sendResponse` on every path and returns.
- A response's members that an error path leaves unset are empty strings in
  C++; `resp.user_id` and `resp.msg_id` are set to 0 there.
- `handle_message` is the decoding switch (`decodeRequest`) followed by the
  dispatch (`handleRequest`). Its outer `none` is a decoder's read outside the
  packet: the run has no defined continuation.
- Log lines are left out.

What dispatching *can* do is said once, by `Handled`: it sends, changes the
tables, the cache, `user_to_conn_` and the caller's `user_id_`, and nothing
else. Which of these a request changes is said by the login's and the chat
message's own lemmas; `Answered` covers the other six handlers.
-/

namespace QQChat.Server.ChatServer

variable {δ : Type}

def sendResponse (s : ChatServer δ) (c : ConnId) (command : CommandCode) (data : Bytes) :
    ChatServer δ :=
  s.send c (encode { version := VERSION, command, data })

/-! ## The handlers -/

def handleLogin (w : World δ) (s : ChatServer δ) (c : ConnId) (req : LoginRequest) :
    ChatServer δ :=
  match w.db.verifyUser s.db req.username req.password with
  | none =>
    s.sendResponse c .loginResp
      (encodeLoginResponse { errorCode := .userNotFound, userId := 0, username := [] })
  | some user =>
    if s.isUserOnline user.userId then
      s.sendResponse c .loginResp
        (encodeLoginResponse { errorCode := .userAlreadyOnline, userId := 0, username := [] })
    else
      let s := s.setUserId c user.userId
      let s := s.setUserConnection user.userId c
      let s := safeCommand w s (.setOnline user.userId true)
      let s := safeCommand w s (.setConnectionId user.userId c)
      s.sendResponse c .loginResp (encodeLoginResponse
        { errorCode := .success, userId := user.userId, username := user.username })

/-- The part of `handle_chat_message` that passes the message on: to the
recipient's connection if there is one, to the unread counter otherwise. That
`send_to_user` may fail is not looked at. -/
def deliver (w : World δ) (s : ChatServer δ) (fromId : Int32) (req : MessageRequest) :
    ChatServer δ :=
  if s.isUserOnline req.toId then
    let notifyData := encodeMessageNotify { fromId, content := req.content, timestamp := w.now }
    let encoded := encode { version := VERSION, command := .messageNotify, data := notifyData }
    (s.sendToUser req.toId encoded).2
  else
    safeCommand w s (.incrementUnread req.toId)

def handleChatMessage (w : World δ) (s : ChatServer δ) (c : ConnId) (req : MessageRequest) :
    ChatServer δ :=
  let fromId := (s.conn c).userId
  if fromId = 0 then
    s.sendResponse c .messageResp
      (encodeMessageResponse { errorCode := .protocolError, msgId := 0 })
  else
    match w.db.sendMessage s.db fromId req.toId req.content with
    | none =>
      s.sendResponse c .messageResp
        (encodeMessageResponse { errorCode := .databaseError, msgId := 0 })
    | some (db, msgId) =>
      let s := deliver w { s with db } fromId req
      s.sendResponse c .messageResp (encodeMessageResponse { errorCode := .success, msgId })

def handleFriendList (w : World δ) (s : ChatServer δ) (c : ConnId) : ChatServer δ :=
  let userId := (s.conn c).userId
  if userId = 0 then
    s.sendResponse c .friendListResp
      (encodeFriendListResponse { errorCode := .protocolError, friends := [] })
  else
    match w.db.getFriends s.db userId with
    | none =>
      s.sendResponse c .friendListResp
        (encodeFriendListResponse { errorCode := .databaseError, friends := [] })
    | some friends =>
      s.sendResponse c .friendListResp (encodeFriendListResponse
        { errorCode := .success, friends := friends.map fun f => (f.friendId, f.friendName) })

/-- The second `add_friend`, for the other direction, may fail unnoticed. -/
def handleAddFriend (w : World δ) (s : ChatServer δ) (c : ConnId) (req : AddFriendRequest) :
    ChatServer δ :=
  let userId := (s.conn c).userId
  if userId = 0 then
    s.sendResponse c .addFriendResp (encodeAddFriendResponse { errorCode := .protocolError })
  else if req.userId = req.friendId then
    s.sendResponse c .addFriendResp (encodeAddFriendResponse { errorCode := .cannotAddSelf })
  else
    match w.db.getUserById s.db req.friendId with
    | none =>
      s.sendResponse c .addFriendResp (encodeAddFriendResponse { errorCode := .userNotFound })
    | some _ =>
      match w.db.addFriend s.db req.userId req.friendId with
      | none =>
        s.sendResponse c .addFriendResp
          (encodeAddFriendResponse { errorCode := .friendRequestExists })
      | some db =>
        let s := { s with db := (w.db.addFriend db req.friendId req.userId).getD db }
        s.sendResponse c .addFriendResp (encodeAddFriendResponse { errorCode := .success })

def handleRegister (w : World δ) (s : ChatServer δ) (c : ConnId) (req : RegisterRequest) :
    ChatServer δ :=
  if req.username = [] ∨ req.password = [] ∨ req.securityQuestion = []
      ∨ req.securityAnswer = [] then
    s.sendResponse c .registerResp
      (encodeRegisterResponse { errorCode := .invalidRequest, userId := 0 })
  else if w.db.usernameExists s.db req.username then
    s.sendResponse c .registerResp
      (encodeRegisterResponse { errorCode := .usernameExists, userId := 0 })
  else
    match w.db.registerUser s.db req.username (w.sha256 req.password) req.securityQuestion
      (w.sha256 req.securityAnswer) with
    | none =>
      s.sendResponse c .registerResp
        (encodeRegisterResponse { errorCode := .databaseError, userId := 0 })
    | some (db, userId) =>
      let s := { s with db }
      s.sendResponse c .registerResp (encodeRegisterResponse { errorCode := .success, userId })

def handleSecurityQuestion (w : World δ) (s : ChatServer δ) (c : ConnId)
    (req : SecurityQuestionRequest) : ChatServer δ :=
  if req.username = [] then
    s.sendResponse c .securityQuestionResp
      (encodeSecurityQuestionResponse { errorCode := .invalidRequest, question := [] })
  else
    match w.db.getSecurityQuestion s.db req.username with
    | none =>
      s.sendResponse c .securityQuestionResp
        (encodeSecurityQuestionResponse { errorCode := .userNotFound, question := [] })
    | some (question, _) =>
      s.sendResponse c .securityQuestionResp
        (encodeSecurityQuestionResponse { errorCode := .success, question })

def handleResetPassword (w : World δ) (s : ChatServer δ) (c : ConnId)
    (req : ResetPasswordRequest) : ChatServer δ :=
  if req.username = [] ∨ req.newPassword = [] ∨ req.securityAnswer = [] then
    s.sendResponse c .resetPasswordResp
      (encodeResetPasswordResponse { errorCode := .invalidRequest })
  else
    match w.db.getSecurityQuestion s.db req.username with
    | none =>
      s.sendResponse c .resetPasswordResp
        (encodeResetPasswordResponse { errorCode := .userNotFound })
    | some (_, answerHash) =>
      if w.sha256 req.securityAnswer ≠ answerHash then
        s.sendResponse c .resetPasswordResp
          (encodeResetPasswordResponse { errorCode := .invalidAnswer })
      else
        match w.db.resetPassword s.db req.username (w.sha256 req.newPassword) with
        | none =>
          s.sendResponse c .resetPasswordResp
            (encodeResetPasswordResponse { errorCode := .databaseError })
        | some db =>
          let s := { s with db }
          s.sendResponse c .resetPasswordResp
            (encodeResetPasswordResponse { errorCode := .success })

def SERVER_APP_VERSION : Int32 := 2

/-- The UTF-8 bytes of a string literal. -/
def literal (str : String) : Bytes :=
  str.toUTF8.toList

def handleVersionCheck (s : ChatServer δ) (c : ConnId) (_req : VersionCheckRequest) :
    ChatServer δ :=
  s.sendResponse c .versionCheckResp (encodeVersionCheckResponse
    { errorCode := .success
      serverVersion := SERVER_APP_VERSION
      updateUrl := literal "https://github.com/lobster-xiaozhua/qq-copy/releases"
      updateDesc := literal "新版本可用，请下载最新安装包更新" })

/-! ## The dispatch -/

/-- What `handle_message`'s switch calls. -/
def handleRequest (w : World δ) (s : ChatServer δ) (c : ConnId) : Request → ChatServer δ
  | .login req => handleLogin w s c req
  | .message req => handleChatMessage w s c req
  | .friendList => handleFriendList w s c
  | .addFriend friendId => handleAddFriend w s c { userId := (s.conn c).userId, friendId }
  | .register req => handleRegister w s c req
  | .securityQuestion req => handleSecurityQuestion w s c req
  | .resetPassword req => handleResetPassword w s c req
  | .versionCheck req => handleVersionCheck s c req

/-- The record of a call of `handle_message`. -/
def called (s : ChatServer δ) (c : ConnId) (packet : Packet) : ChatServer δ :=
  { s with calls := s.calls ++ [.handleMessage c packet] }

def handleMessage (w : World δ) (s : ChatServer δ) (c : ConnId) (packet : Packet) :
    Access (ChatServer δ) := do
  let s := s.called c packet
  match ← decodeRequest packet with
  | some req => return handleRequest w s c req
  | none => return s

/-! ## What a dispatch leaves alone -/

/-- From `s` to `s'`, messages were sent, and members other than those of the
event loop may have changed: no connection was made, registered, stopped, read
from or written to, and of a connection's own members only `user_id_` was set. -/
structure Handled (s s' : ChatServer δ) : Prop where
  running : s'.running = s.running
  accepted : s'.accepted = s.accepted
  connections : s'.connections = s.connections
  conn : ∀ d, ∃ userId, s'.conn d = { s.conn d with userId }
  sends : ∃ sends : List (ConnId × Bytes), s'.posted = s.posted ++ sends
    ∧ s'.calls = s.calls ++ sends.map fun p => .send p.1 p.2

namespace Handled

theorem refl (s : ChatServer δ) : Handled s s :=
  ⟨rfl, rfl, rfl, fun d => ⟨(s.conn d).userId, rfl⟩,
    ⟨[], (List.append_nil _).symm, (List.append_nil _).symm⟩⟩

theorem trans {s s' s'' : ChatServer δ} (h : Handled s s') (h' : Handled s' s'') :
    Handled s s'' := by
  refine ⟨h'.running.trans h.running, h'.accepted.trans h.accepted,
    h'.connections.trans h.connections, fun d => ?_, ?_⟩
  · obtain ⟨_, hd⟩ := h.conn d
    obtain ⟨userId, hd'⟩ := h'.conn d
    exact ⟨userId, by rw [hd', hd]⟩
  · obtain ⟨sends, hposted, hcalls⟩ := h.sends
    obtain ⟨sends', hposted', hcalls'⟩ := h'.sends
    refine ⟨sends ++ sends', ?_, ?_⟩
    · rw [hposted', hposted, List.append_assoc]
    · rw [hcalls', hcalls, List.map_append, List.append_assoc]

theorem send (s : ChatServer δ) (c : ConnId) (data : Bytes) : Handled s (s.send c data) :=
  ⟨rfl, rfl, rfl, fun d => ⟨(s.conn d).userId, rfl⟩, ⟨[(c, data)], rfl, rfl⟩⟩

theorem setUserId (s : ChatServer δ) (c : ConnId) (userId : Int32) :
    Handled s (s.setUserId c userId) := by
  refine ⟨rfl, rfl, rfl, fun d => ?_, (refl s).sends⟩
  by_cases hd : d = c
  · subst hd
    exact ⟨userId, Function.update_self ..⟩
  · exact ⟨(s.conn d).userId, Function.update_of_ne hd ..⟩

theorem setUserConnection (s : ChatServer δ) (userId : Int32) (c : ConnId) :
    Handled s (s.setUserConnection userId c) :=
  ⟨rfl, rfl, rfl, (refl s).conn, (refl s).sends⟩

theorem setDb (s : ChatServer δ) (db : δ) : Handled s { s with db } :=
  ⟨rfl, rfl, rfl, (refl s).conn, (refl s).sends⟩

theorem safeCommand (w : World δ) (s : ChatServer δ) (command : CacheCommand) :
    Handled s (safeCommand w s command) := by
  unfold ChatServer.safeCommand
  split
  · exact ⟨rfl, rfl, rfl, (refl s).conn, (refl s).sends⟩
  · exact refl s

theorem sendToUser (s : ChatServer δ) (userId : Int32) (data : Bytes) :
    Handled s (s.sendToUser userId data).2 := by
  unfold ChatServer.sendToUser
  split
  · exact refl s
  · split
    · exact send s _ data
    · exact refl s

end Handled

/-- A handler that only asks the database and answers. -/
def Answered (s s' : ChatServer δ) (c : ConnId) : Prop :=
  ∃ db command data, s' = { s with db }.sendResponse c command data

theorem handleFriendList_answered (w : World δ) (s : ChatServer δ) (c : ConnId) :
    Answered s (handleFriendList w s c) c := by
  dsimp only [handleFriendList]
  split
  · exact ⟨s.db, _, _, rfl⟩
  · split <;> exact ⟨s.db, _, _, rfl⟩

theorem handleAddFriend_answered (w : World δ) (s : ChatServer δ) (c : ConnId)
    (req : AddFriendRequest) : Answered s (handleAddFriend w s c req) c := by
  dsimp only [handleAddFriend]
  split
  · exact ⟨s.db, _, _, rfl⟩
  split
  · exact ⟨s.db, _, _, rfl⟩
  split
  · exact ⟨s.db, _, _, rfl⟩
  split
  · exact ⟨s.db, _, _, rfl⟩
  · exact ⟨_, _, _, rfl⟩

theorem handleRegister_answered (w : World δ) (s : ChatServer δ) (c : ConnId)
    (req : RegisterRequest) : Answered s (handleRegister w s c req) c := by
  dsimp only [handleRegister]
  split
  · exact ⟨s.db, _, _, rfl⟩
  split
  · exact ⟨s.db, _, _, rfl⟩
  split
  · exact ⟨s.db, _, _, rfl⟩
  · exact ⟨_, _, _, rfl⟩

theorem handleSecurityQuestion_answered (w : World δ) (s : ChatServer δ) (c : ConnId)
    (req : SecurityQuestionRequest) : Answered s (handleSecurityQuestion w s c req) c := by
  dsimp only [handleSecurityQuestion]
  split
  · exact ⟨s.db, _, _, rfl⟩
  split <;> exact ⟨s.db, _, _, rfl⟩

theorem handleResetPassword_answered (w : World δ) (s : ChatServer δ) (c : ConnId)
    (req : ResetPasswordRequest) : Answered s (handleResetPassword w s c req) c := by
  dsimp only [handleResetPassword]
  split
  · exact ⟨s.db, _, _, rfl⟩
  split
  · exact ⟨s.db, _, _, rfl⟩
  split
  · exact ⟨s.db, _, _, rfl⟩
  split
  · exact ⟨s.db, _, _, rfl⟩
  · exact ⟨_, _, _, rfl⟩

/-- Six of the eight requests are answered without touching the sessions. -/
theorem handleRequest_answered (w : World δ) (s : ChatServer δ) (c : ConnId) {r : Request}
    (hlogin : ∀ req, r ≠ .login req) (hmessage : ∀ req, r ≠ .message req) :
    Answered s (handleRequest w s c r) c := by
  cases r with
  | login req => exact absurd rfl (hlogin req)
  | message req => exact absurd rfl (hmessage req)
  | friendList => exact handleFriendList_answered w s c
  | addFriend friendId => exact handleAddFriend_answered w s c _
  | register req => exact handleRegister_answered w s c req
  | securityQuestion req => exact handleSecurityQuestion_answered w s c req
  | resetPassword req => exact handleResetPassword_answered w s c req
  | versionCheck req => exact ⟨s.db, _, _, rfl⟩

theorem Answered.handled {s s' : ChatServer δ} {c : ConnId} (h : Answered s s' c) :
    Handled s s' := by
  obtain ⟨db, command, data, rfl⟩ := h
  exact (Handled.setDb s db).trans (Handled.send _ c _)

theorem handleLogin_handled (w : World δ) (s : ChatServer δ) (c : ConnId) (req : LoginRequest) :
    Handled s (handleLogin w s c req) := by
  dsimp only [handleLogin]
  split
  · exact Handled.send s c _
  next user _ =>
    split
    · exact Handled.send s c _
    · refine Handled.trans ?_ (Handled.send _ c _)
      refine Handled.trans ?_ (Handled.safeCommand w _ _)
      refine Handled.trans ?_ (Handled.safeCommand w _ _)
      exact (Handled.setUserId s c user.userId).trans (Handled.setUserConnection _ user.userId c)

theorem deliver_handled (w : World δ) (s : ChatServer δ) (fromId : Int32)
    (req : MessageRequest) : Handled s (deliver w s fromId req) := by
  unfold deliver
  split
  · exact Handled.sendToUser s _ _
  · exact Handled.safeCommand w s _

theorem handleChatMessage_handled (w : World δ) (s : ChatServer δ) (c : ConnId)
    (req : MessageRequest) : Handled s (handleChatMessage w s c req) := by
  dsimp only [handleChatMessage]
  split
  · exact Handled.send s c _
  split
  · exact Handled.send s c _
  · refine Handled.trans ?_ (Handled.send _ c _)
    exact (Handled.setDb s _).trans (deliver_handled w _ _ req)

/-- **What a dispatched request leaves alone.** -/
theorem handleRequest_handled (w : World δ) (s : ChatServer δ) (c : ConnId) (r : Request) :
    Handled s (handleRequest w s c r) := by
  cases r with
  | login req => exact handleLogin_handled w s c req
  | message req => exact handleChatMessage_handled w s c req
  | _ =>
    refine (handleRequest_answered w s c ?_ ?_).handled
    · exact fun _ heq => nomatch heq
    · exact fun _ heq => nomatch heq

/-- A dispatch that stays inside the packet calls the handler of what it decodes,
if it decodes. -/
theorem handleMessage_eq_some {w : World δ} {s s' : ChatServer δ} {c : ConnId} {packet : Packet} :
    handleMessage w s c packet = some s' ↔ ∃ r, decodeRequest packet = some r
      ∧ s' = r.elim (s.called c packet) (handleRequest w (s.called c packet) c) := by
  unfold handleMessage
  cases decodeRequest packet with
  | none => exact ⟨(fun h => nomatch h), fun ⟨_, h, _⟩ => nomatch h⟩
  | some r =>
    constructor
    · intro h
      cases r with
      | none =>
        cases h
        exact ⟨none, rfl, rfl⟩
      | some req =>
        cases h
        exact ⟨some req, rfl, rfl⟩
    · intro ⟨_, hr, hs'⟩
      cases hr
      rw [hs']
      cases r <;> rfl

/-- The dispatch after its call has been recorded. -/
theorem elim_handled (w : World δ) (s : ChatServer δ) (c : ConnId) (r : Option Request) :
    Handled s (r.elim s (handleRequest w s c)) := by
  cases r with
  | none => exact Handled.refl s
  | some req => exact handleRequest_handled w s c req

end QQChat.Server.ChatServer
