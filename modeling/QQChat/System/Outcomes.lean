import QQChat.System.Messages

/-!
# What a client is told is what was decided

`System.Answers` says which callbacks are called, and in which order. This says with
what: each call of a callback, other than for a message, has the arguments that the
handler of the request decided on, in the state that the server was in when it came to
that request (`outcome`), for the request as the server decoded it. In between are the
response encoder, the frame, the write queue, the stream, however it is cut, the read
buffer and the response decoder.

`decisions` is the record of a run: the requests that were dispatched, by connection,
each with its outcome.
-/

namespace QQChat

open Trace

namespace Server

open Client ChatServer

variable {δ : Type}

/-! ## The outcome of a request -/

/-- What the handler of a request decides, as the call of the request's callback. None
is called for a chat message or a friend request, and none for a friend list that ends
in an error. -/
def outcome (w : World δ) (s : ChatServer δ) (c : ConnId) : Request → Option Invocation
  | .login req =>
    match w.db.verifyUser s.db req.username req.password with
    | none => some (.login ErrorCode.userNotFound.toInt32 0 [])
    | some user =>
      if s.isUserOnline user.userId then some (.login ErrorCode.userAlreadyOnline.toInt32 0 [])
      else some (.login ErrorCode.success.toInt32 user.userId user.username)
  | .message _ => none
  | .friendList =>
    if (s.conn c).userId = 0 then none
    else (w.db.getFriends s.db (s.conn c).userId).map fun friends =>
      .friendList ErrorCode.success.toInt32 (friends.map fun f => (f.friendId, f.friendName))
  | .addFriend _ => none
  | .register req =>
    if req.username = [] ∨ req.password = [] ∨ req.securityQuestion = []
        ∨ req.securityAnswer = [] then
      some (.register ErrorCode.invalidRequest.toInt32 0)
    else if w.db.usernameExists s.db req.username then
      some (.register ErrorCode.usernameExists.toInt32 0)
    else
      match w.db.registerUser s.db req.username (w.sha256 req.password) req.securityQuestion
        (w.sha256 req.securityAnswer) with
      | none => some (.register ErrorCode.databaseError.toInt32 0)
      | some (_, userId) => some (.register ErrorCode.success.toInt32 userId)
  | .securityQuestion req =>
    if req.username = [] then some (.securityQuestion ErrorCode.invalidRequest.toInt32 [])
    else
      match w.db.getSecurityQuestion s.db req.username with
      | none => some (.securityQuestion ErrorCode.userNotFound.toInt32 [])
      | some (question, _) => some (.securityQuestion ErrorCode.success.toInt32 question)
  | .resetPassword req =>
    if req.username = [] ∨ req.newPassword = [] ∨ req.securityAnswer = [] then
      some (.resetPassword ErrorCode.invalidRequest.toInt32)
    else
      match w.db.getSecurityQuestion s.db req.username with
      | none => some (.resetPassword ErrorCode.userNotFound.toInt32)
      | some (_, answerHash) =>
        if w.sha256 req.securityAnswer ≠ answerHash then
          some (.resetPassword ErrorCode.invalidAnswer.toInt32)
        else
          match w.db.resetPassword s.db req.username (w.sha256 req.newPassword) with
          | none => some (.resetPassword ErrorCode.databaseError.toInt32)
          | some _ => some (.resetPassword ErrorCode.success.toInt32)
  | .versionCheck _ =>
    some (.versionCheck ErrorCode.success.toInt32 SERVER_APP_VERSION
      (literal "https://github.com/lobster-xiaozhua/qq-copy/releases")
      (literal "新版本可用，请下载最新安装包更新"))

/-- A dispatched request with its outcome. -/
structure Decision where
  conn : ConnId
  request : Request
  outcome : Option Invocation

def decisionsOf (s : ChatServer δ) : Event δ → List Decision
  | .readBody c body w => (requestOf s c body).toList.map fun r => ⟨c, r, outcome w s c r⟩
  | _ => []

def decisions (db : δ) (evs : List (Event δ)) : List Decision :=
  outputs (step .started) decisionsOf (.init db) evs

def decisionsOn (c : ConnId) (ds : List Decision) : List Decision :=
  ds.filter fun d => d.conn = c

theorem decisionsOn_append (c : ConnId) (ds ds' : List Decision) :
    decisionsOn c (ds ++ ds') = decisionsOn c ds ++ decisionsOn c ds' :=
  List.filter_append ..

end Server

/-! ## The call that an answer leads to -/

namespace Client

open Server

theorem invocation_loginResponse (resp : LoginResponse) (h : resp.username.length ≤ 65535) :
    Callbacks.invocation .loginResp (encodeLoginResponse resp)
      = some (some (.login resp.errorCode.toInt32 resp.userId resp.username)) := by
  rw [Callbacks.invocation, if_pos rfl, decodeLoginResponse_encode resp _ h]
  rfl

theorem invocation_registerResponse (resp : RegisterResponse) :
    Callbacks.invocation .registerResp (encodeRegisterResponse resp)
      = some (some (.register resp.errorCode.toInt32 resp.userId)) := by
  rw [Callbacks.invocation, if_neg (by decide), if_neg (by decide), if_neg (by decide),
    if_pos rfl, decodeRegisterResponse_encode]
  rfl

theorem invocation_securityQuestionResponse (resp : SecurityQuestionResponse)
    (h : resp.question.length ≤ 65535) :
    Callbacks.invocation .securityQuestionResp (encodeSecurityQuestionResponse resp)
      = some (some (.securityQuestion resp.errorCode.toInt32 resp.question)) := by
  rw [Callbacks.invocation, if_neg (by decide), if_neg (by decide), if_neg (by decide),
    if_neg (by decide), if_pos rfl, decodeSecurityQuestionResponse_encode resp _ h]
  rfl

theorem invocation_resetPasswordResponse (resp : ResetPasswordResponse) :
    Callbacks.invocation .resetPasswordResp (encodeResetPasswordResponse resp)
      = some (some (.resetPassword resp.errorCode.toInt32)) := by
  rw [Callbacks.invocation, if_neg (by decide), if_neg (by decide), if_neg (by decide),
    if_neg (by decide), if_neg (by decide), if_pos rfl, decodeResetPasswordResponse_encode]
  rfl

theorem invocation_versionCheckResponse (resp : VersionCheckResponse)
    (hurl : resp.updateUrl.length ≤ 65535) (hdesc : resp.updateDesc.length ≤ 65535) :
    Callbacks.invocation .versionCheckResp (encodeVersionCheckResponse resp)
      = some (some (.versionCheck resp.errorCode.toInt32 resp.serverVersion resp.updateUrl
        resp.updateDesc)) := by
  rw [Callbacks.invocation, if_neg (by decide), if_neg (by decide), if_neg (by decide),
    if_neg (by decide), if_neg (by decide), if_neg (by decide), if_pos rfl,
    decodeVersionCheckResponse_encode resp _ hurl hdesc]
  rfl

end Client

namespace System

open Client Server ChatServer

variable {δ : Type}

/-- A dispatch passes notifications to `send`, and then one answer, which leads to this
call or to none. -/
def LeadsTo (s s' : ChatServer δ) (c : ConnId) (result : Option Invocation) : Prop :=
  ∃ notified answer, Passed s s' (notified ++ [(c, answer)])
    ∧ (∀ p ∈ notified, isNotify p.2 = true) ∧ isNotify answer = false
    ∧ invocationOf answer = some result

section

variable {w : World δ} {s t : ChatServer δ} {c : ConnId}

theorem leadsTo_sendResponse {command : CommandCode} {data : Bytes} {result : Option Invocation}
    (hpassed : Passed s t []) (hcommand : command ≠ .messageNotify) (hlen : data.length < 2 ^ 32)
    (h : Callbacks.invocation command data = some result) :
    LeadsTo s (t.sendResponse c command data) c result := by
  refine ⟨[], _, hpassed.trans (Passed.sendResponse t c command data),
    fun p hp => absurd hp List.not_mem_nil, ?_, invocationOf_encode hlen h⟩
  rw [isNotify_encode]
  exact decide_eq_false hcommand

theorem leadsTo_loginResponse (hpassed : Passed s t []) (resp : LoginResponse)
    (h : resp.username.length ≤ 65535) :
    LeadsTo s (t.sendResponse c .loginResp (encodeLoginResponse resp)) c
      (some (.login resp.errorCode.toInt32 resp.userId resp.username)) := by
  refine leadsTo_sendResponse hpassed (by decide) ?_ (invocation_loginResponse resp h)
  rw [length_encodeLoginResponse]
  omega

theorem leadsTo_registerResponse (hpassed : Passed s t []) (resp : RegisterResponse) :
    LeadsTo s (t.sendResponse c .registerResp (encodeRegisterResponse resp)) c
      (some (.register resp.errorCode.toInt32 resp.userId)) := by
  refine leadsTo_sendResponse hpassed (by decide) ?_ (invocation_registerResponse resp)
  rw [encodeRegisterResponse_eq, List.length_append, BigEndian.length_toBytes,
    BigEndian.length_toBytes]
  decide

theorem leadsTo_securityQuestionResponse (hpassed : Passed s t [])
    (resp : SecurityQuestionResponse) (h : resp.question.length ≤ 65535) :
    LeadsTo s (t.sendResponse c .securityQuestionResp (encodeSecurityQuestionResponse resp)) c
      (some (.securityQuestion resp.errorCode.toInt32 resp.question)) := by
  refine leadsTo_sendResponse hpassed (by decide) ?_ (invocation_securityQuestionResponse resp h)
  rw [encodeSecurityQuestionResponse_eq, List.length_append, BigEndian.length_toBytes,
    length_field]
  omega

theorem leadsTo_resetPasswordResponse (hpassed : Passed s t []) (resp : ResetPasswordResponse) :
    LeadsTo s (t.sendResponse c .resetPasswordResp (encodeResetPasswordResponse resp)) c
      (some (.resetPassword resp.errorCode.toInt32)) := by
  refine leadsTo_sendResponse hpassed (by decide) ?_ (invocation_resetPasswordResponse resp)
  rw [encodeResetPasswordResponse_eq, BigEndian.length_toBytes]
  decide

/-- An answer for no callback leads to no call. -/
theorem leadsTo_none {notified : List (ConnId × Bytes)} {answer : Bytes}
    (h : Answers s t c none notified answer) : LeadsTo s t c none := by
  refine ⟨notified, answer, h.passed, fun p hp => (h.notified p hp).2, h.isNotify, ?_⟩
  obtain ⟨result, hresult⟩ := Option.isSome_iff_exists.mp h.intelligible.isSome
  have hslot := h.slotOf
  unfold slotOf at hslot
  rw [hresult, Option.map_eq_none_iff] at hslot
  rw [hresult]
  exact congrArg some hslot

theorem handleLogin_leadsTo (hw : TextsFit w) (req : LoginRequest) :
    LeadsTo s (handleLogin w s c req) c (outcome w s c (.login req)) := by
  dsimp only [handleLogin, outcome]
  cases huser : w.db.verifyUser s.db req.username req.password with
  | none => exact leadsTo_loginResponse (Passed.refl s) _ (Nat.zero_le _)
  | some user =>
    dsimp only
    split
    · exact leadsTo_loginResponse (Passed.refl s) _ (Nat.zero_le _)
    · have hcached := (Passed.safeCommand w ((s.setUserId c user.userId).setUserConnection
        user.userId c) (.setOnline user.userId true)).trans
        (Passed.safeCommand w _ (.setConnectionId user.userId c))
      have hpassed : Passed s _ [] := ⟨hcached.posted, hcached.calls⟩
      exact leadsTo_loginResponse hpassed ⟨.success, user.userId, user.username⟩
        (hw.username huser)

theorem handleRegister_leadsTo (req : RegisterRequest) :
    LeadsTo s (handleRegister w s c req) c (outcome w s c (.register req)) := by
  dsimp only [handleRegister, outcome]
  split
  · exact leadsTo_registerResponse (Passed.refl s) _
  split
  · exact leadsTo_registerResponse (Passed.refl s) _
  cases w.db.registerUser s.db req.username (w.sha256 req.password) req.securityQuestion
    (w.sha256 req.securityAnswer) with
  | none => exact leadsTo_registerResponse (Passed.refl s) _
  | some p => exact leadsTo_registerResponse (Passed.setDb s p.1) ⟨.success, p.2⟩

theorem handleSecurityQuestion_leadsTo (hw : TextsFit w) (req : SecurityQuestionRequest) :
    LeadsTo s (handleSecurityQuestion w s c req) c (outcome w s c (.securityQuestion req)) := by
  have herror : ∀ errorCode, LeadsTo s (s.sendResponse c .securityQuestionResp
      (encodeSecurityQuestionResponse ⟨errorCode, []⟩)) c
      (some (.securityQuestion errorCode.toInt32 [])) := fun errorCode =>
    leadsTo_securityQuestionResponse (Passed.refl s) ⟨errorCode, []⟩ (Nat.zero_le _)
  dsimp only [handleSecurityQuestion, outcome]
  split
  · exact herror _
  cases hquestion : w.db.getSecurityQuestion s.db req.username with
  | none => exact herror _
  | some p =>
    exact leadsTo_securityQuestionResponse (Passed.refl s) ⟨.success, p.1⟩ (hw.question hquestion)

theorem handleResetPassword_leadsTo (req : ResetPasswordRequest) :
    LeadsTo s (handleResetPassword w s c req) c (outcome w s c (.resetPassword req)) := by
  dsimp only [handleResetPassword, outcome]
  split
  · exact leadsTo_resetPasswordResponse (Passed.refl s) _
  cases w.db.getSecurityQuestion s.db req.username with
  | none => exact leadsTo_resetPasswordResponse (Passed.refl s) _
  | some p =>
    dsimp only
    split
    · exact leadsTo_resetPasswordResponse (Passed.refl s) _
    cases w.db.resetPassword s.db req.username (w.sha256 req.newPassword) with
    | none => exact leadsTo_resetPasswordResponse (Passed.refl s) _
    | some db => exact leadsTo_resetPasswordResponse (Passed.setDb s db) _

theorem handleVersionCheck_leadsTo (req : VersionCheckRequest) :
    LeadsTo s (handleVersionCheck s c req) c (outcome w s c (.versionCheck req)) := by
  refine leadsTo_sendResponse (Passed.refl s) (by decide) ?_
    (invocation_versionCheckResponse ⟨.success, SERVER_APP_VERSION, _, _⟩ ?_ ?_)
  · decide +kernel
  · decide +kernel
  · decide +kernel

/-- **The answer leads to what the handler has decided.** -/
theorem handleRequest_leadsTo (hw : TextsFit w) {r : Request} (hr : Dispatchable r) :
    LeadsTo s (handleRequest w s c r) c (outcome w s c r) := by
  cases r with
  | login req => exact handleLogin_leadsTo hw req
  | message req =>
    obtain ⟨_, _, hanswers⟩ := handleChatMessage_answers (w := w) (s := s) (c := c) req hr
    exact leadsTo_none hanswers
  | friendList => exact absurd hr id
  | addFriend friendId =>
    obtain ⟨_, _, hanswers⟩ := handleAddFriend_answers (w := w) (s := s) (c := c) ⟨_, friendId⟩
    exact leadsTo_none hanswers
  | register req => exact handleRegister_leadsTo req
  | securityQuestion req => exact handleSecurityQuestion_leadsTo hw req
  | resetPassword req => exact handleResetPassword_leadsTo req
  | versionCheck req => exact handleVersionCheck_leadsTo req

end

/-! ## Over a run of the server -/

/-- What the outcome depends on. -/
theorem outcome_congr (w : World δ) {s t : ChatServer δ} {c : ConnId} (hdb : t.db = s.db)
    (hentries : t.userToConn = s.userToConn) (huser : (t.conn c).userId = (s.conn c).userId)
    (r : Request) : outcome w t c r = outcome w s c r := by
  have honline : t.isUserOnline = s.isUserOnline := by
    unfold isUserOnline
    rw [hentries]
  cases r with
  | login req =>
    dsimp only [outcome]
    rw [hdb, honline]
  | friendList =>
    dsimp only [outcome]
    rw [hdb, huser]
  | message req => rfl
  | addFriend friendId => rfl
  | versionCheck req => rfl
  | _ =>
    dsimp only [outcome]
    rw [hdb]

/-- On every connection, the requests handed over and the answers sent are those of the
decisions. -/
structure Decided (db : δ) (evs : List (Server.Event δ)) (s : ChatServer δ) : Prop where
  requests : ∀ c, (requestsOn c s.calls).map (fun packet => (decodeRequest packet).join)
    = (decisionsOn c (decisions db evs)).map fun d => some d.request
  answers : ∀ c, (answersOn c s.calls).map invocationOf
    = (decisionsOn c (decisions db evs)).map fun d => some d.outcome

section

variable {db : δ} {evs : List (Server.Event δ)} {s s' : ChatServer δ} {e : Server.Event δ}

theorem decisions_snoc (hrun : exec (Server.step .started) (.init db) evs = some s)
    (h : Server.step .started s e = some s') (c : ConnId) :
    decisionsOn c (decisions db (evs ++ [e]))
      = decisionsOn c (decisions db evs) ++ decisionsOn c (decisionsOf s e) := by
  unfold decisions
  rw [outputs_snoc hrun h, decisionsOn_append]

theorem decisionsOn_dispatch (c d : ConnId) (body : Bytes) (w : World δ) {r : Request}
    (h : requestOf s c body = some r) : decisionsOn d (decisionsOf s (.readBody c body w))
      = if c = d then [⟨c, r, outcome w s c r⟩] else [] := by
  dsimp only [decisionsOf]
  rw [h]
  by_cases hd : c = d
  · simp [decisionsOn, hd]
  · simp [decisionsOn, hd]

theorem Decided.snoc (hs : Decided db evs s)
    (hrun : exec (Server.step .started) (.init db) evs = some s)
    (h : Server.step .started s e = some s')
    (he : ∀ c body w, e = .readBody c body w → TextsFit w
      ∧ ∀ r, requestOf s c body = some r → Dispatchable r) : Decided db (evs ++ [e]) s' := by
  rcases e.readBody_or_ne with ⟨c, body, w, rfl⟩ | hne
  · obtain ⟨_, _, packet, r, hpacket, hr, rfl⟩ := step_readBody.mp h
    obtain ⟨hw, hdispatchable⟩ := he c body w rfl
    have hrequest := requestOf_eq hpacket hr
    cases r with
    | none =>
      -- The packet is dropped.
      have hnone : ∀ d, decisionsOn d (decisionsOf s (.readBody c body w)) = [] := fun d => by
        dsimp only [decisionsOf]
        rw [hrequest]
        rfl
      have hcalls : (((s.bodyRead c body).called c packet).doReadHeader c).calls
          = s.calls ++ .handleMessage c packet :: ([] : List (ConnId × Bytes)).map sendCall := rfl
      refine ⟨fun d => ?_, fun d => ?_⟩
      · rw [decisions_snoc hrun h, hnone, List.append_nil, ← hs.requests d]
        show (requestsOn d (((s.bodyRead c body).called c packet).doReadHeader c).calls).map _ = _
        rw [hcalls, requestsOn_dispatch]
        simp [requestsOn, hr]
      · rw [decisions_snoc hrun h, hnone, List.append_nil, ← hs.answers d]
        show (answersOn d (((s.bodyRead c body).called c packet).doReadHeader c).calls).map _ = _
        rw [hcalls, answersOn_dispatch]
        simp [answersOn]
    | some r =>
      obtain ⟨notified, answer, hpassed, hnotified, hanswer, hleads⟩ := handleRequest_leadsTo
        (s := (s.bodyRead c body).called c packet) (c := c) hw (hdispatchable r hrequest)
      have huser : (((s.bodyRead c body).called c packet).conn c).userId = (s.conn c).userId :=
        congrArg (Registry.user · c) (registry_bodyRead s c body)
      have hsame : outcome w ((s.bodyRead c body).called c packet) c r = outcome w s c r :=
        outcome_congr (s := s) (t := (s.bodyRead c body).called c packet) w rfl rfl huser r
      rw [hsame] at hleads
      have hcalls : ((handleRequest w ((s.bodyRead c body).called c packet) c r).doReadHeader
          c).calls = s.calls ++ .handleMessage c packet :: (notified ++ [(c, answer)]).map sendCall :=
        hpassed.calls.trans (List.append_assoc ..)
      refine ⟨fun d => ?_, fun d => ?_⟩
      · rw [decisions_snoc hrun h, decisionsOn_dispatch c d body w hrequest, List.map_append,
          ← hs.requests d]
        show (requestsOn d ((handleRequest w _ c r).doReadHeader c).calls).map _ = _
        rw [hcalls, requestsOn_dispatch, List.map_append]
        by_cases hd : c = d
        · simp [requestsOn, hd, hr]
        · simp [requestsOn, hd]
      · rw [decisions_snoc hrun h, decisionsOn_dispatch c d body w hrequest, List.map_append,
          ← hs.answers d]
        show (answersOn d ((handleRequest w _ c r).doReadHeader c).calls).map _ = _
        rw [hcalls, answersOn_dispatch, answersOn_sends hnotified hanswer, List.map_append]
        by_cases hd : c = d
        · simp [hd, hleads]
        · simp [hd]
  · have hnone : ∀ d, decisionsOn d (decisionsOf s e) = [] := fun d => by
      cases e with
      | readBody c body w => exact absurd rfl (hne c body w)
      | _ => rfl
    refine ⟨fun d => ?_, fun d => ?_⟩
    · rw [decisions_snoc hrun h, hnone, List.append_nil, (calls_of_quiet h hne d).1, hs.requests d]
    · rw [decisions_snoc hrun h, hnone, List.append_nil, (calls_of_quiet h hne d).2, hs.answers d]

end

/-! ## Over a run of the system -/

section

variable {db : δ} {evs : List (Event δ)} {s s' : State δ} {c : ConnId}

/-- What is dispatched is a request of the client, as it is decoded. -/
theorem Served.request_of_body (hs : Served db evs s) {body : Bytes} {w : World δ} {sent : Nat}
    (h : step s (.server (.readBody c body w) sent) = some s') {r : Request}
    (hr : requestOf s.server c body = some r) :
    ∃ r' ∈ readable (s.peer c).requests, decodeRequest (packetOf r') = some (some r) := by
  obtain ⟨hserver, hpeer⟩ := step_server h
  obtain ⟨_, hreads, packet, decoded, hpacket, hdecoded, _⟩ := step_readBody.mp hserver
  obtain ⟨uplink, huplink, _⟩ := hpeer c
  rw [Event.bytesRead, if_pos rfl] at huplink
  obtain ⟨r', hr', hheader, rfl⟩ :=
    hs.linked.packet_of_body (hs.attentive c).bounded hreads ⟨uplink, huplink⟩
  rw [requestOf_eq hpacket hdecoded] at hr
  rw [packet_bodyRead hheader] at hpacket
  cases hpacket
  exact ⟨r', hr', hdecoded.trans (congrArg some hr)⟩

/-- What is dispatched is a request that a client of ours can have dispatched. -/
theorem Served.dispatchable (hs : Served db evs s) {body : Bytes} {w : World δ} {sent : Nat}
    (h : step s (.server (.readBody c body w) sent) = some s') {r : Request}
    (hr : requestOf s.server c body = some r) : Dispatchable r := by
  obtain ⟨r', hr', hdecode⟩ := hs.request_of_body h hr
  exact dispatchable_of_readable (readable_of_mem hr') hdecode

theorem decided_of_exec (h : exec step (.init db) evs = some s)
    (hbounded : ∀ e ∈ evs, e.Bounded) : Decided db (serverEvents evs) s.server := by
  refine (exec_induction (P := fun evs s => (∀ e ∈ evs, Event.Bounded e) →
    Served db evs s ∧ Decided db (serverEvents evs) s.server) (fun _ => ?_)
    (fun {evs e m t} hm hstep hall => ?_) h hbounded).2
  · exact ⟨served_init db, fun _ => rfl, fun _ => rfl⟩
  · rw [List.forall_mem_append] at hall
    obtain ⟨hserved, hdecided⟩ := hm hall.1
    have he := hall.2 _ (List.mem_singleton_self _)
    refine ⟨hserved.snoc hstep he, ?_⟩
    cases e with
    | server e sent =>
      rw [serverEvents_snoc_server]
      refine hdecided.snoc hserved.linked.run (step_server hstep).1 fun c body w heq => ?_
      subst heq
      exact ⟨he, fun r hr => hserved.dispatchable hstep hr⟩
    | request c r =>
      rw [serverEvents_snoc_client (fun _ _ heq => by cases heq), step_request hstep]
      exact hdecided
    | recv c chunk =>
      obtain ⟨_, _, _, rfl⟩ := step_recv hstep
      rw [serverEvents_snoc_client fun _ _ heq => by cases heq]
      exact hdecided
    | handle c =>
      obtain ⟨_, _, _, _, _, _, rfl⟩ := step_handle hstep
      rw [serverEvents_snoc_client fun _ _ heq => by cases heq]
      exact hdecided

/-- The requests of a client, as the server decodes those that it reads. -/
def decodedRequests (rs : List Request) : List Request :=
  (readable rs).filterMap fun r => (decodeRequest (packetOf r)).join

theorem Decided.outcomes (hs : Decided db (serverEvents evs) s.server) (c : ConnId) :
    ((answersOn c s.server.calls).filterMap fun b => (invocationOf b).join)
      = (decisionsOn c (decisions db (serverEvents evs))).filterMap Decision.outcome := by
  have hjoined := congrArg (List.filterMap Option.join) (hs.answers c)
  rwa [List.filterMap_map, List.filterMap_map] at hjoined

theorem Decided.handed (hs : Decided db (serverEvents evs) s.server) (c : ConnId) :
    (decisionsOn c (decisions db (serverEvents evs))).map Decision.request
      = (handledOn c s.server.calls).filterMap fun packet => (decodeRequest packet).join := by
  have hjoined := congrArg (List.filterMap id) (hs.requests c)
  rw [List.filterMap_map, List.filterMap_map, requestsOn_eq, List.filterMap_filter] at hjoined
  rw [← List.filterMap_eq_map]
  refine hjoined.symm.trans (List.filterMap_congr fun packet _ => ?_)
  dsimp only [Function.comp_apply, id_eq]
  cases (decodeRequest packet).join <;> rfl

/-- The callbacks of a client, other than for messages, among the buffers it has handled. -/
theorem Served.answerCalls (hs : Served db evs s) (c : ConnId) :
    ((s.peer c).invocations.filter fun invocation => invocation.slot ≠ .messageCallback)
      = ((s.peer c).handled.filter fun b => !isNotify b).filterMap
        fun b => (invocationOf b).join := by
  rw [(hs.attentive c).invocations]
  exact answers_of_intelligible fun b hb => hs.intelligible ((hs.handled_isPrefix c).subset hb)

theorem Decided.told_isPrefix (hdecided : Decided db (serverEvents evs) s.server)
    (hs : Served db evs s) (c : ConnId) :
    ((s.peer c).invocations.filter fun invocation => invocation.slot ≠ .messageCallback)
      <+: (decisionsOn c (decisions db (serverEvents evs))).filterMap Decision.outcome := by
  rw [hs.answerCalls, ← hdecided.outcomes, answersOn_eq]
  exact ((hs.handled_isPrefix c).filter _).filterMap _

/-- **A client is told what was decided.** At any time, on every connection: the requests
decided on are the first of the client's, as the server decodes them; the calls of the
client's callbacks, other than for messages, are the outcomes of the first of these,
argument for argument. Once nothing more can be read, all of its requests have been decided
on, and once nothing is in flight to it, it has been told every outcome. -/
theorem told_decisions (h : exec step (.init db) evs = some s)
    (hbounded : ∀ e ∈ evs, e.Bounded) (c : ConnId) :
    (decisionsOn c (decisions db (serverEvents evs))).map Decision.request
        <+: decodedRequests (s.peer c).requests
      ∧ ((s.peer c).invocations.filter fun invocation => invocation.slot ≠ .messageCallback)
        <+: (decisionsOn c (decisions db (serverEvents evs))).filterMap Decision.outcome
      ∧ (Drained evs s c → (decisionsOn c (decisions db (serverEvents evs))).map Decision.request
        = decodedRequests (s.peer c).requests)
      ∧ (Delivered evs s c →
        ((s.peer c).invocations.filter fun invocation => invocation.slot ≠ .messageCallback)
          = (decisionsOn c (decisions db (serverEvents evs))).filterMap Decision.outcome) := by
  have hs := served_of_exec h hbounded
  have hdecided := decided_of_exec h hbounded
  have hdecoded : decodedRequests (s.peer c).requests
      = ((readable (s.peer c).requests).map packetOf).filterMap
        fun packet => (decodeRequest packet).join := by
    rw [List.filterMap_map]
    rfl
  rw [hdecided.handed, hdecoded]
  refine ⟨(hs.linked.handledOn_isPrefix (hs.attentive c).bounded).filterMap _,
    hdecided.told_isPrefix hs c, fun hdrained => ?_, fun hdelivered => ?_⟩
  · rw [hs.linked.handledOn_eq (hs.attentive c).bounded hdrained]
  · rw [hs.answerCalls, ← hdecided.outcomes, answersOn_eq,
      hs.linked.handled_eq (fun b hb => (hs.intelligible hb).isFrame) hdelivered]

end

/-- User 1 is told the id and the name. -/
theorem told_decisions_login : ∃ s, exec step (.init ()) loginExchange = some s
    ∧ ((s.peer 1).invocations.filter fun invocation => invocation.slot ≠ .messageCallback)
      = [.login 0 1 [97]] := by
  obtain ⟨s, hs, _, _, hdelivered⟩ := exec_loginExchange
  obtain ⟨_, _, _, hall⟩ := told_decisions hs bounded_loginExchange 1
  refine ⟨s, hs, (hall hdelivered).trans ?_⟩
  decide +kernel

end System

end QQChat
