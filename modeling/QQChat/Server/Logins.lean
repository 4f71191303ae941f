import QQChat.Server.WriteQueue

/-!
# Who a connection belongs to

`user_id_` of a connection, which the handlers take for the sender of a request,
against what the server has sent: in every run it is the user of the last login on
that connection that was answered with SUCCESS, and 0 if there was none
(`step_loggedIn`). Failed logins, the other seven handlers, stops and whatever
happens on other connections leave both alone.
-/

namespace QQChat.Server

open Trace ChatServer

variable {δ : Type}

/-! ## Logins in what was sent -/

/-- The user whom an answer logs in: a LOGIN_RESP with SUCCESS names the user. -/
def loginAnswered (data : Bytes) : Option Int32 :=
  userIdOf .loginResp data

/-- The users whom the answers on a connection log in, in order. -/
def loginsOn (c : ConnId) (sends : List (ConnId × Bytes)) : List Int32 :=
  sends.filterMap fun p => if p.1 = c then loginAnswered p.2 else none

/-- The user of the last login on a connection that was answered with SUCCESS. -/
def lastLogin (c : ConnId) (s : ChatServer δ) : Option Int32 :=
  (loginsOn c (sendsOf s.calls)).getLast?

theorem loginAnswered_encode (resp : LoginResponse) :
    loginAnswered (encode {
      version := VERSION
      command := .loginResp
      data := encodeLoginResponse resp })
      = if resp.errorCode = .success then some resp.userId else none :=
  userIdOf_encode (encodeLoginResponse_eq resp)

theorem loginAnswered_eq_none {data : Bytes} {command : CommandCode}
    (h : commandOf data = some command) (hne : command ≠ .loginResp) :
    loginAnswered data = none :=
  if_neg fun hlogin => hne (Option.some_inj.mp (h.symm.trans hlogin.1))

theorem loginsOn_append (c : ConnId) (sends sends' : List (ConnId × Bytes)) :
    loginsOn c (sends ++ sends') = loginsOn c sends ++ loginsOn c sends' :=
  List.filterMap_append ..

theorem loginsOn_eq_nil {c : ConnId} {sends : List (ConnId × Bytes)}
    (h : ∀ p ∈ sends, p.1 = c → loginAnswered p.2 = none) : loginsOn c sends = [] := by
  refine List.filterMap_eq_nil_iff.mpr fun p hp => ?_
  split
  next hc => exact h p hp hc
  next => rfl

/-! ## What a step sends -/

section

variable {wiring : Wiring} {s s' : ChatServer δ} {e : Event δ}

/-- Only a dispatched packet sends, or touches the tables. -/
theorem step_undispatched (h : step wiring s e = some s')
    (he : ∀ c body w, e ≠ .readBody c body w) : s'.db = s.db ∧ passedToSend s s' = [] := by
  refine ⟨(step_stored h he).1, List.drop_eq_nil_of_le ?_⟩
  -- A posted buffer may leave the queue; none enters it.
  rw [(step_quiet h he).2]
  unfold postedAfter
  split
  · rw [List.length_tail]
    exact Nat.sub_le ..
  · exact Nat.le_refl _

/-- What a step passes to `send` is what it adds to the log. -/
theorem sendsOf_step (h : step wiring s e = some s') :
    sendsOf s'.calls = sendsOf s.calls ++ passedToSend s s' := by
  rcases e.readBody_or_ne with ⟨c, body, w, rfl⟩ | he
  · obtain ⟨sends, hposted, hcalls, _⟩ := step_sends h
    rw [hcalls, sendsOf_append, sendsOf_append, sendsOf_loopCalls, sendsOf_map, List.nil_append,
      passedToSend_eq hposted]
  · rw [(step_quiet h he).1, sendsOf_append, sendsOf_loopCalls, (step_undispatched h he).2]

/-- A dispatched packet, as the handlers see it. -/
theorem step_dispatched {c : ConnId} {body : Bytes} {w : World δ}
    (h : step wiring s (.readBody c body w) = some s') : ∃ packet,
      (((s.bodyRead c body).called c packet).conn c).userId = (s.conn c).userId
        ∧ ((requestOf s c body = none ∧ s'.db = s.db ∧ passedToSend s s' = [])
          ∨ ∃ r, requestOf s c body = some r
            ∧ s'.db = (handleRequest w ((s.bodyRead c body).called c packet) c r).db
            ∧ passedToSend s s' = passedToSend ((s.bodyRead c body).called c packet)
              (handleRequest w ((s.bodyRead c body).called c packet) c r)) := by
  obtain ⟨_, _, packet, r, hpacket, hr, rfl⟩ := step_readBody.mp h
  refine ⟨packet, congrArg (Registry.user · c) (registry_bodyRead s c body), ?_⟩
  rw [requestOf_eq hpacket hr]
  cases r with
  | none => exact Or.inl ⟨rfl, rfl, passedToSend_eq (List.append_nil _).symm⟩
  | some r => exact Or.inr ⟨r, rfl, rfl, rfl⟩

/-- What is sent goes to connections that were accepted. -/
theorem accepted_of_passed (hs : Targeted s) (h : step wiring s e = some s')
    {p : ConnId × Bytes} (hp : p ∈ passedToSend s s') : p.1 ∈ s.accepted := by
  rcases e.readBody_or_ne with ⟨c, body, w, rfl⟩ | he
  · obtain ⟨sends, hposted, _, htargets⟩ := step_sends h
    rw [passedToSend_eq hposted] at hp
    rcases htargets p hp with hlive | hreads
    · exact hs.known hlive
    · exact hs.reads.accepted p.1 hreads
  · rw [(step_undispatched h he).2] at hp
    cases hp

end

/-! ## The logins of a step -/

/-- The answer to a LOGIN_REQ logs in the user that was let in, if one was. -/
theorem handleLogin_answer (w : World δ) (s : ChatServer δ) (c : ConnId) (req : LoginRequest) :
    ∃ resp, Passed s (handleLogin w s c req) [(c, encode {
        version := VERSION
        command := .loginResp
        data := encodeLoginResponse resp })]
      ∧ (if resp.errorCode = .success then some resp.userId else none)
        = (verifiedUser w s req).map User.userId := by
  dsimp only [handleLogin, verifiedUser]
  cases w.db.verifyUser s.db req.username req.password with
  | none => exact ⟨_, Passed.sendResponse s c _ _, if_neg (by decide)⟩
  | some user =>
    dsimp only
    split
    · exact ⟨_, Passed.sendResponse s c _ _, if_neg (by decide)⟩
    · have hcached := (Passed.safeCommand w ((s.setUserId c user.userId).setUserConnection
        user.userId c) (.setOnline user.userId true)).trans
        (Passed.safeCommand w _ (.setConnectionId user.userId c))
      have hpassed := hcached.trans (Passed.sendResponse _ c .loginResp
        (encodeLoginResponse ⟨.success, user.userId, user.username⟩))
      exact ⟨_, ⟨hpassed.posted, hpassed.calls⟩, if_pos rfl⟩

/-- The user whom a request logs in. -/
def loginBy (w : World δ) (s : ChatServer δ) : Request → Option Int32
  | .login req => (verifiedUser w s req).map User.userId
  | _ => none

theorem loginsOn_handleRequest (w : World δ) (s : ChatServer δ) (c d : ConnId) (r : Request) :
    loginsOn d (passedToSend s (handleRequest w s c r))
      = if c = d then (loginBy w s r).toList else [] := by
  have hother : answerCommand r.command ≠ .loginResp →
      loginsOn d (passedToSend s (handleRequest w s c r)) = [] := by
    intro hne
    refine loginsOn_eq_nil fun p hp _ => ?_
    rcases (handleRequest_responds w s c r).commandOf_passed hp with hcommand | hcommand
    · exact loginAnswered_eq_none hcommand (by decide)
    · exact loginAnswered_eq_none hcommand hne
  cases r with
  | login req =>
    obtain ⟨resp, hpassed, hlogin⟩ := handleLogin_answer w s c req
    show loginsOn d (passedToSend s (handleLogin w s c req)) = _
    rw [hpassed.passedToSend, loginBy, ← hlogin, ← loginAnswered_encode, loginsOn]
    split
    next hc =>
      rw [List.filterMap_cons, List.filterMap_nil]
      dsimp only
      rw [if_pos hc]
      cases loginAnswered _ <;> rfl
    next hc =>
      rw [List.filterMap_cons, List.filterMap_nil]
      dsimp only
      rw [if_neg hc]
  | _ =>
    refine (hother (by simp only [Request.command]; decide)).trans ?_
    split <;> rfl

section

variable {wiring : Wiring} {s s' : ChatServer δ} {e : Event δ}

/-- The logins in what a step sends are the logins it makes. -/
theorem step_logins (h : step wiring s e = some s') (d : ConnId) :
    loginsOn d (passedToSend s s') = match sessionAction s e with
      | .login c u => if c = d then [u] else []
      | _ => [] := by
  rcases e.readBody_or_ne with ⟨c, body, w, rfl⟩ | he
  · have hlogins : loginsOn d (passedToSend s s')
        = if c = d then ((acceptedLogin s c body w).map User.userId).toList else [] := by
      obtain ⟨packet, _, ⟨hr, _, hpassed⟩ | ⟨r, hr, _, hpassed⟩⟩ := step_dispatched h
      · rw [hpassed, acceptedLogin, hr]
        split <;> rfl
      · rw [hpassed, loginsOn_handleRequest, acceptedLogin, hr]
        cases r <;> rfl
    rw [hlogins]
    cases hlogin : acceptedLogin s c body w with
    | none =>
      rw [sessionAction_of_no_login hlogin]
      split <;> rfl
    | some user =>
      rw [sessionAction_of_login hlogin]
      rfl
  · rw [(step_undispatched h he).2]
    split
    next c u heq => exact absurd heq (sessionAction_ne_login he c u)
    next => rfl

/-- An answer that logs a user in is that user's, verified and not online yet. -/
theorem login_of_answered (h : step wiring s e = some s') {p : ConnId × Bytes}
    (hp : p ∈ passedToSend s s') {u : Int32} (hu : loginAnswered p.2 = some u) :
    ∃ body w req user, e = .readBody p.1 body w ∧ requestOf s p.1 body = some (.login req)
      ∧ w.db.verifyUser s.db req.username req.password = some user ∧ user.userId = u := by
  have hmem : u ∈ loginsOn p.1 (passedToSend s s') :=
    List.mem_filterMap.mpr ⟨p, hp, (if_pos rfl).trans hu⟩
  rw [step_logins h] at hmem
  split at hmem
  next c u' haction =>
    obtain ⟨body, w, user, rfl, hlogin, rfl⟩ := sessionAction_eq_login haction
    split at hmem
    next hc =>
      subst hc
      rw [List.mem_singleton.mp hmem]
      unfold acceptedLogin at hlogin
      split at hlogin
      next req hr =>
        unfold verifiedUser at hlogin
        split at hlogin
        · cases hlogin
        next user' hverify =>
          split at hlogin
          · cases hlogin
          · cases hlogin
            exact ⟨body, w, req, user, rfl, hr, hverify, rfl⟩
      · cases hlogin
    · cases hmem
  · cases hmem

/-! ## Along a run -/

/-- A connection belongs to the user of its last login, and nothing was ever sent on
one that was not accepted. -/
structure LoggedIn (s : ChatServer δ) : Prop where
  targeted : Targeted s
  sends : ∀ p ∈ sendsOf s.calls, p.1 ∈ s.accepted
  userId : ∀ c, (s.conn c).userId = (lastLogin c s).getD 0

theorem loggedIn_init (db : δ) : LoggedIn (ChatServer.init db) where
  targeted := targeted_init db
  sends := fun _ hp => absurd hp List.not_mem_nil
  userId := fun _ => rfl

theorem LoggedIn.lastLogin_eq_none (hs : LoggedIn s) {c : ConnId} (hc : c ∉ s.accepted) :
    lastLogin c s = none := by
  have hnone : loginsOn c (sendsOf s.calls) = [] := by
    refine loginsOn_eq_nil fun p hp heq => absurd (hs.sends p hp) ?_
    rw [heq]
    exact hc
  unfold lastLogin
  rw [hnone]
  rfl

/-- An authenticated connection has logged in. -/
theorem LoggedIn.lastLogin_eq_some (hs : LoggedIn s) {c : ConnId} (hauth : (s.conn c).userId ≠ 0) :
    lastLogin c s = some (s.conn c).userId := by
  rw [hs.userId c] at hauth ⊢
  cases h : lastLogin c s with
  | none =>
    rw [h] at hauth
    exact absurd rfl hauth
  | some u => rfl

theorem step_lastLogin (h : step wiring s e = some s') (d : ConnId) :
    lastLogin d s' = match sessionAction s e with
      | .login c u => if c = d then some u else lastLogin d s
      | _ => lastLogin d s := by
  unfold lastLogin
  rw [sendsOf_step h, loginsOn_append, step_logins h, List.getLast?_append]
  split
  next c u => split <;> rfl
  next => rfl

/-- **Every step keeps a connection with the user of its last login.** -/
theorem step_loggedIn (hs : LoggedIn s) (h : step wiring s e = some s') : LoggedIn s' := by
  refine ⟨step_targeted hs.targeted h, fun p hp => ?_, fun d => ?_⟩
  · refine accepted_subset h ?_
    rw [sendsOf_step h, List.mem_append] at hp
    rcases hp with hp | hp
    · exact hs.sends p hp
    · exact accepted_of_passed hs.targeted h hp
  · have huser : (s'.conn d).userId = (s.registry.apply (sessionAction s e)).user d := by
      rw [← step_registry h]
      rfl
    rw [huser, step_lastLogin h]
    cases haction : sessionAction s e with
    | accept c =>
      show Function.update (fun d => (s.conn d).userId) c 0 d = _
      by_cases hd : d = c
      · -- A new connection starts with 0, and nothing was sent on it.
        have hfresh : d ∉ s.accepted := by
          rw [sessionAction_eq_accept haction, ← hd] at h
          exact (step_accept.mp h).2.1
        rw [hd, Function.update_self, ← hd, hs.lastLogin_eq_none hfresh]
        rfl
      · rw [Function.update_of_ne hd]
        exact hs.userId d
    | login c u =>
      show Function.update (fun d => (s.conn d).userId) c u d = _
      by_cases hd : d = c
      · rw [hd, Function.update_self]
        dsimp only
        rw [if_pos rfl]
        rfl
      · rw [Function.update_of_ne hd]
        dsimp only
        rw [if_neg (Ne.symm hd)]
        exact hs.userId d
    | stop c => exact hs.userId d
    | clear => exact hs.userId d
    | idle => exact hs.userId d

end

end QQChat.Server
