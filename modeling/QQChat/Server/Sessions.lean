import QQChat.Lib.Registry
import QQChat.Server.Step

/-!
# The server as a session registry

`connections_`, `user_to_conn_` and the connections' `user_id_`s are a
`Registry`; `sessionAction` says which of its actions an event causes, and
`step_registry` that every step of the server is that action of the registry —
the server *refines* it. What a registry's properties need from the server is
only that the actions are enabled: new connections are new (`Known`), and a
login is accepted only of a user without an entry.
-/

namespace QQChat.Server

open ChatServer

variable {δ : Type}

/-! ## What an event does to the sessions -/

def ChatServer.registry (s : ChatServer δ) : Registry ConnId Int32 where
  live := s.connections
  user c := (s.conn c).userId
  owner := s.userToConn

/-- The request `handle_message` decodes when `body` completes a packet on `c`. -/
def requestOf (s : ChatServer δ) (c : ConnId) (body : Bytes) : Option Request := do
  let packet ← ((s.bodyRead c body).conn c).packet
  let r ← decodeRequest packet
  r

/-- The user that `handle_login` lets in: the database verifies the request,
and the user is not online. -/
def verifiedUser (w : World δ) (s : ChatServer δ) (req : LoginRequest) : Option User :=
  match w.db.verifyUser s.db req.username req.password with
  | none => none
  | some user => if s.isUserOnline user.userId then none else some user

/-- The user that logs in when `body` completes a packet on `c`. -/
def acceptedLogin (s : ChatServer δ) (c : ConnId) (body : Bytes) (w : World δ) : Option User :=
  match requestOf s c body with
  | some (.login req) => verifiedUser w s req
  | _ => none

/-- The connection that an event makes the manager stop. -/
def Event.stopped : Event δ → Option ConnId
  | .readHeader c header => do
    let bodyLength ← readUint32 header 3
    if Acceptable bodyLength then none else some c
  | .readError c _ => some c
  | .writeError c => some c
  | _ => none

theorem stopped_readHeader {c : ConnId} {header : Bytes} {bodyLength : UInt32}
    (h : readUint32 header 3 = some bodyLength) :
    (Event.readHeader (δ := δ) c header).stopped
      = if Acceptable bodyLength then none else some c := by
  show (readUint32 header 3).bind _ = _
  rw [h]
  rfl

def sessionAction (s : ChatServer δ) (e : Event δ) : Registry.Action ConnId Int32 :=
  match e with
  | .accept c => .accept c
  | .readBody c body w =>
    match acceptedLogin s c body w with
    | some user => .login c user.userId
    | none => .idle
  | .shutdown => .clear
  | e =>
    match e.stopped with
    | some c => .stop c
    | none => .idle

/-- A login action is an accepted login. -/
theorem sessionAction_eq_login {s : ChatServer δ} {e : Event δ} {c : ConnId} {u : Int32}
    (h : sessionAction s e = .login c u) : ∃ body w user, e = .readBody c body w
      ∧ acceptedLogin s c body w = some user ∧ user.userId = u := by
  unfold sessionAction at h
  split at h
  · cases h
  next d body w =>
    split at h
    next user hlogin =>
      cases h
      exact ⟨body, w, user, rfl, hlogin, rfl⟩
    next => cases h
  · cases h
  · split at h <;> cases h

/-- Only a dispatched packet logs a user in. -/
theorem sessionAction_ne_login {s : ChatServer δ} {e : Event δ}
    (he : ∀ c body w, e ≠ .readBody c body w) (c : ConnId) (u : Int32) :
    sessionAction s e ≠ .login c u := by
  intro h
  obtain ⟨body, w, _, heq, _⟩ := sessionAction_eq_login h
  exact he c body w heq

theorem sessionAction_of_login {s : ChatServer δ} {c : ConnId} {body : Bytes} {w : World δ}
    {user : User} (h : acceptedLogin s c body w = some user) :
    sessionAction s (.readBody c body w) = .login c user.userId := by
  show (match acceptedLogin s c body w with
    | some user => Registry.Action.login c user.userId
    | none => .idle) = _
  rw [h]

theorem sessionAction_of_no_login {s : ChatServer δ} {c : ConnId} {body : Bytes} {w : World δ}
    (h : acceptedLogin s c body w = none) : sessionAction s (.readBody c body w) = .idle := by
  show (match acceptedLogin s c body w with
    | some user => Registry.Action.login c user.userId
    | none => .idle) = _
  rw [h]

/-- A stop action is a stop of the manager. -/
theorem sessionAction_eq_stop {s : ChatServer δ} {e : Event δ} {c : ConnId} :
    sessionAction s e = .stop c ↔ e.stopped = some c := by
  unfold sessionAction
  split
  · exact ⟨(fun h => nomatch h), fun h => nomatch h⟩
  · split <;> exact ⟨(fun h => nomatch h), fun h => nomatch h⟩
  · exact ⟨(fun h => nomatch h), fun h => nomatch h⟩
  · split
    next d hd =>
      constructor
      · intro h
        cases h
        exact hd
      · intro h
        rw [hd] at h
        cases h
        rfl
    next hd => exact ⟨(fun h => nomatch h), fun h => by rw [hd] at h; cases h⟩

theorem sessionAction_eq_accept {s : ChatServer δ} {e : Event δ} {c : ConnId}
    (h : sessionAction s e = .accept c) : e = .accept c := by
  unfold sessionAction at h
  split at h
  · cases h
    rfl
  · split at h <;> cases h
  · cases h
  · split at h <;> cases h

/-! ## The operations on the registry -/

theorem registry_modify (s : ChatServer δ) (c : ConnId) {f : Connection → Connection}
    (hf : ∀ conn, (f conn).userId = conn.userId) : (s.modify c f).registry = s.registry := by
  have huser : (fun d => ((s.modify c f).conn d).userId) = fun d => (s.conn d).userId := by
    funext d
    by_cases hd : d = c
    · rw [hd, modify_conn_self, hf]
    · rw [modify_conn_of_ne s hd]
  show Registry.mk _ _ _ = Registry.mk _ _ _
  rw [huser]
  rfl

theorem registry_headerRead (s : ChatServer δ) (c : ConnId) (header : Bytes) :
    (s.headerRead c header).registry = s.registry :=
  registry_modify s c fun _ => rfl

theorem registry_bodyRead (s : ChatServer δ) (c : ConnId) (body : Bytes) :
    (s.bodyRead c body).registry = s.registry :=
  registry_modify s c fun _ => rfl

theorem registry_called (s : ChatServer δ) (c : ConnId) (packet : Packet) :
    (s.called c packet).registry = s.registry :=
  rfl

theorem registry_doReadHeader (s : ChatServer δ) (c : ConnId) :
    (s.doReadHeader c).registry = s.registry :=
  registry_modify s c fun _ => rfl

theorem registry_doReadBody (s : ChatServer δ) (c : ConnId) (length : Nat) :
    (s.doReadBody c length).registry = s.registry :=
  registry_modify s c fun _ => rfl

theorem registry_expectBody (s : ChatServer δ) (c : ConnId) (bodyLength : Nat) :
    (s.expectBody c bodyLength).registry = s.registry := by
  rw [expectBody, registry_doReadBody]
  exact registry_modify s c fun _ => rfl

theorem registry_doWrite (s : ChatServer δ) (c : ConnId) (data : Bytes) :
    (s.doWrite c data).registry = s.registry :=
  registry_modify s c fun _ => rfl

theorem registry_stop (s : ChatServer δ) (c : ConnId) :
    (s.stop c).registry = s.registry.apply (.stop c) :=
  rfl

theorem registry_onReadError (s : ChatServer δ) (c : ConnId) (op : ReadOp) :
    (s.onReadError c op).registry = s.registry.apply (.stop c) := by
  have hread : (s.modify c fun conn => { conn with reads := conn.reads.erase op }).registry
      = s.registry := registry_modify s c fun _ => rfl
  rw [onReadError, registry_stop, hread]

theorem registry_onWriteError (s : ChatServer δ) (c : ConnId) :
    (s.onWriteError c).registry = s.registry.apply (.stop c) := by
  have hwrite : (s.modify c fun conn => { conn with writes := conn.writes.tail }).registry
      = s.registry := registry_modify s c fun _ => rfl
  rw [onWriteError, registry_stop, hwrite]

theorem registry_onPosted (s : ChatServer δ) (c : ConnId) (data : Bytes) :
    (s.onPosted c data).registry = s.registry := by
  dsimp only [onPosted]
  split
  · exact registry_modify s c fun _ => rfl
  · rw [registry_doWrite]
    exact registry_modify s c fun _ => rfl

theorem registry_onWritten (s : ChatServer δ) (c : ConnId) :
    (s.onWritten c).registry = s.registry := by
  dsimp only [onWritten]
  split
  · exact registry_modify s c fun _ => rfl
  · rw [registry_doWrite]
    exact registry_modify s c fun _ => rfl

theorem registry_doAccept (wiring : Wiring) (s : ChatServer δ) (c : ConnId) :
    (s.doAccept wiring c).registry = s.registry.apply (.accept c) := by
  have huser : (fun d => (Function.update s.conn c {} d).userId)
      = Function.update (fun d => (s.conn d).userId) c 0 := by
    funext d
    by_cases hd : d = c
    · rw [hd, Function.update_self, Function.update_self]
    · rw [Function.update_of_ne hd, Function.update_of_ne hd]
  have hstart : (s.doAccept .asWritten c).registry = s.registry.apply (.accept c) := by
    show Registry.mk _ (fun d => (Function.update s.conn c {} d).userId) _ = Registry.mk _ _ _
    rw [huser]
    rfl
  cases wiring with
  | asWritten => exact hstart
  | started =>
    rw [← hstart]
    exact registry_modify _ c fun _ => rfl

theorem registry_login (s : ChatServer δ) (c : ConnId) (u : Int32) :
    ((s.setUserId c u).setUserConnection u c).registry = s.registry.apply (.login c u) := by
  have huser : (fun d => ((s.setUserId c u).conn d).userId)
      = Function.update (fun d => (s.conn d).userId) c u := by
    funext d
    by_cases hd : d = c
    · rw [hd, setUserId, modify_conn_self, Function.update_self]
    · rw [setUserId, modify_conn_of_ne s hd, Function.update_of_ne hd]
  show Registry.mk _ (fun d => ((s.setUserId c u).conn d).userId) _ = Registry.mk _ _ _
  rw [huser]
  rfl

theorem registry_safeCommand (w : World δ) (s : ChatServer δ) (command : CacheCommand) :
    (safeCommand w s command).registry = s.registry := by
  unfold safeCommand
  split <;> rfl

theorem registry_sendToUser (s : ChatServer δ) (userId : Int32) (data : Bytes) :
    (s.sendToUser userId data).2.registry = s.registry := by
  unfold sendToUser
  split
  · rfl
  · split <;> rfl

theorem registry_handleChatMessage (w : World δ) (s : ChatServer δ) (c : ConnId)
    (req : MessageRequest) : (handleChatMessage w s c req).registry = s.registry := by
  dsimp only [handleChatMessage]
  split
  · rfl
  split
  · rfl
  next db _ _ =>
    show (deliver w { s with db } _ req).registry = _
    unfold deliver
    split
    · exact registry_sendToUser { s with db } _ _
    · exact registry_safeCommand w { s with db } _

/-- A login is one action of the registry if it is accepted, and none otherwise. -/
theorem registry_handleLogin (w : World δ) (s : ChatServer δ) (c : ConnId)
    (req : LoginRequest) : (handleLogin w s c req).registry
      = s.registry.apply (match verifiedUser w s req with
        | some user => .login c user.userId
        | none => .idle) := by
  dsimp only [handleLogin, verifiedUser]
  cases w.db.verifyUser s.db req.username req.password with
  | none => rfl
  | some user =>
    dsimp only
    split
    · rfl
    · show (safeCommand w (safeCommand w _ _) _).registry = _
      rw [registry_safeCommand, registry_safeCommand, registry_login]

theorem ChatServer.Answered.registry {s s' : ChatServer δ} {c : ConnId} (h : Answered s s' c) :
    s'.registry = s.registry := by
  obtain ⟨_, _, _, rfl⟩ := h
  rfl

/-! ## The refinement -/

theorem requestOf_eq {s : ChatServer δ} {c : ConnId} {body : Bytes} {packet : Packet}
    {r : Option Request} (hpacket : ((s.bodyRead c body).conn c).packet = some packet)
    (hr : decodeRequest packet = some r) : requestOf s c body = r := by
  unfold requestOf
  rw [hpacket]
  show (decodeRequest packet).bind _ = _
  rw [hr]
  rfl

/-- A dispatched packet is a login or nothing to the sessions. -/
theorem registry_dispatch (w : World δ) (s : ChatServer δ) (c : ConnId) (r : Option Request) :
    (r.elim s (handleRequest w s c)).registry
      = s.registry.apply (match (match r with
          | some (.login req) => verifiedUser w s req
          | _ => none) with
        | some user => .login c user.userId
        | none => .idle) := by
  cases r with
  | none => rfl
  | some r =>
    have hother : (∀ req, r ≠ .login req) → (∀ req, r ≠ .message req) →
        (handleRequest w s c r).registry = s.registry :=
      fun hlogin hmessage => (handleRequest_answered w s c hlogin hmessage).registry
    cases r with
    | login req => exact registry_handleLogin w s c req
    | message req => exact registry_handleChatMessage w s c req
    | _ => exact hother (fun _ heq => nomatch heq) fun _ heq => nomatch heq

/-- **The server refines the registry**: a step is the action it causes. -/
theorem step_registry {wiring : Wiring} {s s' : ChatServer δ} {e : Event δ}
    (h : step wiring s e = some s') : s'.registry = s.registry.apply (sessionAction s e) := by
  cases e with
  | accept c =>
    obtain ⟨_, _, rfl⟩ := step_accept.mp h
    exact registry_doAccept wiring s c
  | acceptError =>
    obtain ⟨_, rfl⟩ := step_acceptError.mp h
    rfl
  | readHeader c header =>
    obtain ⟨_, _, bodyLength, hlength, rfl⟩ := step_readHeader.mp h
    show _ = s.registry.apply (match (Event.readHeader (δ := δ) c header).stopped with
      | some c => .stop c
      | none => .idle)
    rw [stopped_readHeader hlength]
    split
    · rw [registry_expectBody, registry_headerRead]
      rfl
    · rw [registry_stop, registry_headerRead]
  | readBody c body w =>
    obtain ⟨_, _, packet, r, hpacket, hr, rfl⟩ := step_readBody.mp h
    rw [registry_doReadHeader, registry_dispatch, registry_called, registry_bodyRead,
      ← requestOf_eq hpacket hr]
    rfl
  | readError c op =>
    obtain ⟨_, _, rfl⟩ := step_readError.mp h
    exact registry_onReadError s c op
  | runPosted =>
    obtain ⟨_, c, data, posted, _, rfl⟩ := step_runPosted.mp h
    exact registry_onPosted _ c data
  | writeOk c =>
    obtain ⟨_, _, rfl⟩ := step_writeOk.mp h
    exact registry_onWritten s c
  | writeError c =>
    obtain ⟨_, _, rfl⟩ := step_writeError.mp h
    exact registry_onWriteError s c
  | shutdown =>
    obtain ⟨_, rfl⟩ := step_shutdown.mp h
    rfl

/-! ## The actions are enabled -/

section

variable {wiring : Wiring} {s s' : ChatServer δ} {e : Event δ}

/-- Ids are never taken back. -/
theorem accepted_subset (h : step wiring s e = some s') : s.accepted ⊆ s'.accepted := by
  cases e with
  | accept c =>
    obtain ⟨_, _, rfl⟩ := step_accept.mp h
    cases wiring <;> exact Finset.subset_insert c s.accepted
  | acceptError =>
    obtain ⟨_, rfl⟩ := step_acceptError.mp h
    exact Finset.Subset.refl _
  | readHeader c header =>
    obtain ⟨_, _, _, _, rfl⟩ := step_readHeader.mp h
    split <;> exact Finset.Subset.refl _
  | readBody c body w =>
    obtain ⟨_, _, packet, r, _, _, rfl⟩ := step_readBody.mp h
    have hhandled := elim_handled w ((s.bodyRead c body).called c packet) c r
    exact Finset.subset_of_eq hhandled.accepted.symm
  | readError c op =>
    obtain ⟨_, _, rfl⟩ := step_readError.mp h
    exact Finset.Subset.refl _
  | runPosted =>
    obtain ⟨_, c, data, posted, _, rfl⟩ := step_runPosted.mp h
    dsimp only [onPosted]
    split <;> exact Finset.Subset.refl _
  | writeOk c =>
    obtain ⟨_, _, rfl⟩ := step_writeOk.mp h
    dsimp only [onWritten]
    split <;> exact Finset.Subset.refl _
  | writeError c =>
    obtain ⟨_, _, rfl⟩ := step_writeError.mp h
    exact Finset.Subset.refl _
  | shutdown =>
    obtain ⟨_, rfl⟩ := step_shutdown.mp h
    exact Finset.Subset.refl _

/-- The manager knows only connections that were accepted. -/
def Known (s : ChatServer δ) : Prop :=
  s.connections ⊆ s.accepted

theorem mem_accepted_of_accept {c : ConnId} (h : step wiring s (.accept c) = some s') :
    c ∈ s'.accepted := by
  obtain ⟨_, _, rfl⟩ := step_accept.mp h
  cases wiring <;> exact Finset.mem_insert_self c s.accepted

/-- Only accepting a connection registers it. -/
theorem mem_connections_of_step {d : ConnId} (h : step wiring s e = some s')
    (hd : d ∈ s'.connections) : d ∈ s.connections ∨ e = .accept d := by
  have hlive : d ∈ s'.registry.live := hd
  rw [step_registry h] at hlive
  exact (Registry.mem_live_apply hlive).imp_right sessionAction_eq_accept

theorem sessionAction_eq_clear (h : sessionAction s e = .clear) : e = .shutdown := by
  unfold sessionAction at h
  split at h
  · cases h
  · split at h <;> cases h
  · rfl
  · split at h <;> cases h

/-- A connection stays registered until it is stopped, or the server is. -/
theorem mem_connections_of_mem {d : ConnId} (h : step wiring s e = some s')
    (hd : d ∈ s.connections) (hstop : e.stopped ≠ some d) (hshutdown : e ≠ .shutdown) :
    d ∈ s'.connections := by
  have hlive : d ∈ (s.registry.apply (sessionAction s e)).live :=
    Registry.mem_live_apply_of_mem hd (fun ha => hstop (sessionAction_eq_stop.mp ha))
      fun ha => hshutdown (sessionAction_eq_clear ha)
  rw [← step_registry h] at hlive
  exact hlive

theorem step_known (hk : Known s) (h : step wiring s e = some s') : Known s' := by
  intro d hd
  rcases mem_connections_of_step h hd with hd | rfl
  · exact accepted_subset h (hk hd)
  · exact mem_accepted_of_accept h

/-- `handle_login` lets a user in only without an entry. -/
theorem verifiedUser_offline {w : World δ} {req : LoginRequest} {user : User}
    (h : verifiedUser w s req = some user) : s.userToConn user.userId = none := by
  unfold verifiedUser at h
  split at h
  · cases h
  · split at h
    next => cases h
    next hoff =>
      cases h
      exact Option.not_isSome_iff_eq_none.mp hoff

theorem acceptedLogin_offline {c : ConnId} {body : Bytes} {w : World δ} {user : User}
    (h : acceptedLogin s c body w = some user) : s.userToConn user.userId = none := by
  unfold acceptedLogin at h
  split at h
  · exact verifiedUser_offline h
  · cases h

theorem enabled_sessionAction (hk : Known s) (h : step wiring s e = some s') :
    s.registry.Enabled (sessionAction s e) := by
  cases e with
  | accept c =>
    obtain ⟨_, hfresh, _⟩ := step_accept.mp h
    exact fun hc => hfresh (hk hc)
  | readBody c body w =>
    show s.registry.Enabled (match acceptedLogin s c body w with
      | some user => .login c user.userId
      | none => .idle)
    split
    next user hlogin => exact acceptedLogin_offline hlogin
    next => trivial
  | readHeader c header =>
    show s.registry.Enabled (match (Event.readHeader (δ := δ) c header).stopped with
      | some c => .stop c
      | none => .idle)
    split <;> trivial
  | acceptError => trivial
  | readError c op => trivial
  | runPosted => trivial
  | writeOk c => trivial
  | writeError c => trivial
  | shutdown => trivial

end

/-- The server before anything happened. -/
def ChatServer.init (db : δ) : ChatServer δ :=
  { db }

theorem known_init (db : δ) : Known (ChatServer.init db) :=
  Finset.Subset.refl _

end QQChat.Server
