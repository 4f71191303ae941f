import QQChat.Database.Friends
import QQChat.Server.Logins

/-!
# Whose rows and lists they are

The server over the tables of `init.sql`, over whole runs of its event loop: every
row that a request inserts, and every friend list it is answered with, is the user's
who last logged in on the request's connection (`authentic`).

No request names its sender. The handlers take `user_id_` of the connection for it,
which is the user of the last login (`LoggedIn`), so it is enough that an
unauthenticated connection's requests are refused.
-/

namespace QQChat.Database

open Server ChatServer Trace

/-! ## The rows of a request -/

section

variable {collation : Collation} {hash : Sha256} {mysql : MySQL} {w : World Tables}
  {t t' : Tables} {userId : Int32} {r : Request}

/-- A message is from the user of the connection. -/
theorem Writes.messages_append (hw : w.db = databasePool collation hash mysql)
    (h : Writes w t userId r t') : ∃ rows, t'.messages = t.messages ++ rows
      ∧ ∀ row ∈ rows, userId ≠ 0 ∧ row.fromId = userId := by
  by_cases hr : ∃ req, r = .message req
  · obtain ⟨req, rfl⟩ := hr
    cases h with
    | nothing => exact ⟨[], (List.append_nil _).symm, fun _ hrow => absurd hrow List.not_mem_nil⟩
    | message hauth h =>
      rw [hw] at h
      rw [sendMessage_eq_some h]
      refine ⟨_, rfl, fun row hrow => ⟨hauth, ?_⟩⟩
      rw [List.mem_singleton.mp hrow]
  · refine ⟨[], ?_, fun _ hrow => absurd hrow List.not_mem_nil⟩
    rw [List.append_nil]
    exact h.messages_eq hw fun req heq => hr ⟨req, heq⟩

/-- The user of the connection is on one side of a friendship. -/
theorem Writes.friends_append (hw : w.db = databasePool collation hash mysql)
    (h : Writes w t userId r t') : ∃ rows, t'.friends = t.friends ++ rows
      ∧ ∀ row ∈ rows, userId ≠ 0 ∧ (row.userId = userId ∨ row.friendId = userId) := by
  by_cases hr : ∃ friendId, r = .addFriend friendId
  · obtain ⟨friendId, rfl⟩ := hr
    cases h with
    | nothing => exact ⟨[], (List.append_nil _).symm, fun _ hrow => absurd hrow List.not_mem_nil⟩
    | @addFriend _ t₁ hauth hself hfriend h =>
      rw [hw] at h ⊢
      have hfirst : t₁.friends = t.friends ++ [{ userId, friendId, status := 1 }] := by
        rw [(addFriend_eq_some.mp h).2.2]
      show ∃ rows, ((Database.addFriend mysql t₁ friendId userId).getD t₁).friends = _ ∧ _
      cases hback : Database.addFriend mysql t₁ friendId userId with
      | none =>
        refine ⟨_, hfirst, fun row hrow => ⟨hauth, Or.inl ?_⟩⟩
        rw [List.mem_singleton.mp hrow]
      | some t₂ =>
        refine ⟨[{ userId, friendId, status := 1 },
          { userId := friendId, friendId := userId, status := 1 }], ?_, fun row hrow => ?_⟩
        · rw [Option.getD_some, (addFriend_eq_some.mp hback).2.2, hfirst]
          exact List.append_assoc ..
        · refine ⟨hauth, ?_⟩
          rcases List.mem_cons.mp hrow with rfl | hrow
          · exact Or.inl rfl
          · rw [List.mem_singleton.mp hrow]
            exact Or.inr rfl
  · refine ⟨[], ?_, fun _ hrow => absurd hrow List.not_mem_nil⟩
    rw [List.append_nil]
    exact h.friends_eq hw fun friendId heq => hr ⟨friendId, heq⟩

/-- The friends that are listed are the user's. -/
theorem befriended_getFriends {friends : List Friend}
    (h : getFriends mysql t userId = some friends) {f : Friend} (hf : f ∈ friends) :
    Befriended t userId f.friendId := by
  obtain ⟨_, heq⟩ := Option.ite_none_right_eq_some.mp h
  rw [← Option.some_inj.mp heq] at hf
  obtain ⟨pair, hpair, rfl⟩ := List.mem_map.mp hf
  have hjoined : pair ∈ joinFriends t userId :=
    (mysql.order_perm _).mem_iff.mp ((List.takeWhile_sublist _).subset hpair)
  obtain ⟨row, hrow, hfound⟩ := List.mem_filterMap.mp hjoined
  obtain ⟨friend, _, rfl⟩ := Option.map_eq_some_iff.mp hfound
  obtain ⟨hrow, hown⟩ := List.mem_filter.mp hrow
  obtain ⟨huser, hstatus⟩ := of_decide_eq_true hown
  exact ⟨row, hrow, huser, rfl, hstatus⟩

end

/-! ## The steps of the server -/

/-- The database that a callback finds is the one of `database_pool.cpp`. -/
def UsesPool (collation : Collation) (hash : Sha256) (e : Event Tables) : Prop :=
  ∀ c body w, e = .readBody c body w → ∃ mysql, w.db = databasePool collation hash mysql

/-- What a step inserts and lists belongs to whoever last logged in on the connection
of its request; without a login there is nothing. -/
structure Authentic (s : ChatServer Tables) (e : Event Tables) (s' : ChatServer Tables) : Prop where
  messages : ∃ rows, s'.db.messages = s.db.messages ++ rows ∧ ∀ row ∈ rows,
    ∃ c body w, e = .readBody c body w ∧ lastLogin c s = some row.fromId
  friends : ∃ rows, s'.db.friends = s.db.friends ++ rows ∧ ∀ row ∈ rows,
    ∃ c body w u, e = .readBody c body w ∧ lastLogin c s = some u
      ∧ (row.userId = u ∨ row.friendId = u)
  lists : ∀ p ∈ passedToSend s s', commandOf p.2 = some .friendListResp →
    errorCodeOf p.2 = some .success → ∃ u resp, lastLogin p.1 s = some u
      ∧ p.2 = encode {
        version := VERSION
        command := .friendListResp
        data := encodeFriendListResponse resp }
      ∧ ∀ friend ∈ resp.friends, Befriended s.db u friend.1
  logins : ∀ p ∈ passedToSend s s', ∀ u, loginAnswered p.2 = some u →
    ∃ body w req user, e = .readBody p.1 body w ∧ requestOf s p.1 body = some (.login req)
      ∧ w.db.verifyUser s.db req.username req.password = some user ∧ user.userId = u
  anonymous : ∀ c body w, e = .readBody c body w → lastLogin c s = none →
    s'.db.messages = s.db.messages ∧ s'.db.friends = s.db.friends
      ∧ ∀ p ∈ passedToSend s s', commandOf p.2 = some .friendListResp →
        errorCodeOf p.2 ≠ some .success

section

variable {wiring : Wiring} {collation : Collation} {hash : Sha256} {s s' : ChatServer Tables}
  {e : Event Tables}

/-- What a request writes, as a step of the server. -/
theorem step_writes {c : ConnId} {body : Bytes} {w : World Tables}
    (h : step wiring s (.readBody c body w) = some s') :
    ∃ r, Writes w s.db (s.conn c).userId r s'.db := by
  obtain ⟨packet, huser, ⟨_, hdb, _⟩ | ⟨r, _, hdb, _⟩⟩ := step_dispatched h
  · rw [hdb]
    exact ⟨.friendList, .nothing⟩
  · rw [hdb, ← huser]
    exact ⟨r, handleRequest_writes w ((s.bodyRead c body).called c packet) c r⟩

theorem step_listsFriends (h : step wiring s e = some s') {p : ConnId × Bytes}
    (hp : p ∈ passedToSend s s') (hcommand : commandOf p.2 = some .friendListResp) :
    ∃ c body w resp, e = .readBody c body w ∧ ListsFriends w s.db (s.conn c).userId resp
      ∧ p = (c, encode {
        version := VERSION
        command := .friendListResp
        data := encodeFriendListResponse resp }) := by
  rcases e.readBody_or_ne with ⟨c, body, w, rfl⟩ | he
  · obtain ⟨packet, huser, ⟨_, _, hpassed⟩ | ⟨r, _, _, hpassed⟩⟩ := step_dispatched h
    · rw [hpassed] at hp
      cases hp
    · rw [hpassed] at hp
      obtain ⟨resp, hlists, heq⟩ := friendList_of_passed hp hcommand
      rw [huser] at hlists
      exact ⟨c, body, w, resp, rfl, hlists, heq⟩
  · rw [(step_undispatched h he).2] at hp
    cases hp

theorem step_messages (hpool : UsesPool collation hash e) (hs : LoggedIn s)
    (h : step wiring s e = some s') : ∃ rows, s'.db.messages = s.db.messages ++ rows
      ∧ ∀ row ∈ rows, ∃ c body w, e = .readBody c body w ∧ lastLogin c s = some row.fromId := by
  rcases e.readBody_or_ne with ⟨c, body, w, rfl⟩ | he
  · obtain ⟨mysql, hw⟩ := hpool c body w rfl
    obtain ⟨r, hwrites⟩ := step_writes h
    obtain ⟨rows, hrows, hfrom⟩ := hwrites.messages_append hw
    refine ⟨rows, hrows, fun row hrow => ⟨c, body, w, rfl, ?_⟩⟩
    obtain ⟨hauth, hid⟩ := hfrom row hrow
    rw [hid]
    exact hs.lastLogin_eq_some hauth
  · rw [(step_undispatched h he).1]
    exact ⟨[], (List.append_nil _).symm, fun _ hrow => absurd hrow List.not_mem_nil⟩

theorem step_friends (hpool : UsesPool collation hash e) (hs : LoggedIn s)
    (h : step wiring s e = some s') : ∃ rows, s'.db.friends = s.db.friends ++ rows
      ∧ ∀ row ∈ rows, ∃ c body w u, e = .readBody c body w ∧ lastLogin c s = some u
        ∧ (row.userId = u ∨ row.friendId = u) := by
  rcases e.readBody_or_ne with ⟨c, body, w, rfl⟩ | he
  · obtain ⟨mysql, hw⟩ := hpool c body w rfl
    obtain ⟨r, hwrites⟩ := step_writes h
    obtain ⟨rows, hrows, hside⟩ := hwrites.friends_append hw
    refine ⟨rows, hrows, fun row hrow => ?_⟩
    obtain ⟨hauth, hid⟩ := hside row hrow
    exact ⟨c, body, w, _, rfl, hs.lastLogin_eq_some hauth, hid⟩
  · rw [(step_undispatched h he).1]
    exact ⟨[], (List.append_nil _).symm, fun _ hrow => absurd hrow List.not_mem_nil⟩

theorem step_lists (hpool : UsesPool collation hash e) (hs : LoggedIn s)
    (h : step wiring s e = some s') {p : ConnId × Bytes} (hp : p ∈ passedToSend s s')
    (hcommand : commandOf p.2 = some .friendListResp)
    (hsuccess : errorCodeOf p.2 = some .success) :
    ∃ body w u resp, e = .readBody p.1 body w ∧ lastLogin p.1 s = some u
      ∧ p.2 = encode {
        version := VERSION
        command := .friendListResp
        data := encodeFriendListResponse resp }
      ∧ ∀ friend ∈ resp.friends, Befriended s.db u friend.1 := by
  obtain ⟨c, body, w, resp, rfl, hresp, rfl⟩ := step_listsFriends h hp hcommand
  obtain ⟨mysql, hw⟩ := hpool c body w rfl
  rw [errorCodeOf_encode (carries_friendListResponse resp)] at hsuccess
  cases hresp with
  | refused herror => exact absurd (Option.some_inj.mp hsuccess) herror
  | listed hauth hsome =>
    rw [hw] at hsome
    refine ⟨body, w, _, _, rfl, hs.lastLogin_eq_some hauth, rfl, fun friend hfriend => ?_⟩
    obtain ⟨f, hf, rfl⟩ := List.mem_map.mp hfriend
    exact befriended_getFriends hsome hf

theorem step_authentic (hpool : UsesPool collation hash e) (hs : LoggedIn s)
    (h : step wiring s e = some s') : Authentic s e s' := by
  obtain ⟨messages, hmessages, hfrom⟩ := step_messages hpool hs h
  obtain ⟨friends, hfriends, hside⟩ := step_friends hpool hs h
  refine ⟨⟨messages, hmessages, hfrom⟩, ⟨friends, hfriends, hside⟩, ?_, ?_, ?_⟩
  · intro p hp hcommand hsuccess
    obtain ⟨_, _, u, resp, _, hlogin, hencoded, hown⟩ := step_lists hpool hs h hp hcommand hsuccess
    exact ⟨u, resp, hlogin, hencoded, hown⟩
  · exact fun p hp u hu => login_of_answered h hp hu
  · -- A row or a list would belong to a login.
    intro c body w he hnone
    subst he
    refine ⟨?_, ?_, fun p hp hcommand hsuccess => ?_⟩
    · rw [hmessages, List.append_right_eq_self, List.eq_nil_iff_forall_not_mem]
      intro row hrow
      obtain ⟨_, _, _, heq, hlogin⟩ := hfrom row hrow
      cases heq
      rw [hnone] at hlogin
      cases hlogin
    · rw [hfriends, List.append_right_eq_self, List.eq_nil_iff_forall_not_mem]
      intro row hrow
      obtain ⟨_, _, _, _, heq, hlogin, _⟩ := hside row hrow
      cases heq
      rw [hnone] at hlogin
      cases hlogin
    · obtain ⟨_, _, _, _, heq, hlogin, _⟩ := step_lists hpool hs h hp hcommand hsuccess
      cases heq
      rw [hnone] at hlogin
      cases hlogin

/-- **Messages, friendships and friend lists are those of the last login**: over any
run of the server, with any packets on any connections. -/
theorem authentic {t : Tables} {evs : List (Event Tables)}
    (hpool : ∀ e ∈ evs, UsesPool collation hash e) :
    EachStep (step wiring) Authentic (.init t) evs :=
  EachStep.of_invariant (fun _ hs h => step_loggedIn hs h) step_authentic hpool (loggedIn_init t)

end

/-! ## A session -/

def reachableWorld : World Tables :=
  world utf8 sampleHash reachable (fun _ => true) 0

/-- User 2 fails to log in, logs in, writes to user 3, adds user 3, and asks for the
list of friends with a body of one byte. -/
def session : List (Event Tables) :=
  .accept 1 :: [
      .login { username := [117, 115, 101, 114, 49], password := [120] },
      .login { username := [117, 115, 101, 114, 49], password := password123 },
      .message { toId := 3, content := [104, 105] },
      .addFriend 3].flatMap (received 1 reachableWorld)
    ++ [.readHeader 1 [1, 0, 6, 0, 0, 0, 1], .readBody 1 [0] reachableWorld]

theorem authentic_session :
    (exec (step .started) (.init initSql) session).map (fun s =>
        (s.db.messages.map MessageRow.fromId, s.db.friends.drop 4, loginsOn 1 (sendsOf s.calls)))
      = some ([2], [⟨2, 3, 1⟩, ⟨3, 2, 1⟩], [2])
    ∧ EachStep (step .started) Authentic (.init initSql) session := by
  have hpool : ∀ e ∈ session, UsesPool utf8 sampleHash e := by
    intro e he c body w heq
    subst heq
    have hw : w = reachableWorld := by
      rcases List.mem_append.mp he with he | he
      · obtain ⟨r, _, hr⟩ := List.mem_flatMap.mp (List.mem_of_ne_of_mem (by simp) he)
        exact world_of_mem_received hr
      · simp only [List.mem_cons, reduceCtorEq, List.not_mem_nil, or_false, false_or,
          Event.readBody.injEq] at he
        exact he.2.2
    exact ⟨reachable, congrArg World.db hw⟩
  exact ⟨by decide, authentic hpool⟩

end QQChat.Database
