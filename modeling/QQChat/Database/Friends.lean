import QQChat.Database.Dispatch
import QQChat.Lib.Trace

/-!
# Friendship

What `handle_add_friend` keeps of the `friends` table. It inserts a row for either
direction, each by a statement of its own and outside any transaction, and looks
at the result of the first only: the table stays symmetric exactly as long as the
second is executed too (`symmetric_iff`).

That two users are friends already it concludes from the first insert failing. But
the index on `(user_id, friend_id)` is not unique, so the insert does not fail, and
a row is there once exactly as long as nobody adds a friend again (`unique_iff`).
-/

namespace QQChat.Database

open Server ChatServer Trace

/-! ## The rows -/

/-- A row for this direction, with the status of a friend. -/
def Befriended (t : Tables) (userId friendId : Int32) : Prop :=
  ∃ row ∈ t.friends, row.userId = userId ∧ row.friendId = friendId ∧ row.status = 1

instance (t : Tables) (userId friendId : Int32) : Decidable (Befriended t userId friendId) :=
  inferInstanceAs (Decidable (∃ row ∈ t.friends, _))

def Symmetric (t : Tables) : Prop :=
  ∀ userId friendId, Befriended t userId friendId → Befriended t friendId userId

theorem symmetric_iff_rows {t : Tables} : Symmetric t ↔
    ∀ row ∈ t.friends, row.status = 1 → Befriended t row.friendId row.userId := by
  constructor
  · intro hs row hrow hstatus
    exact hs row.userId row.friendId ⟨row, hrow, rfl, rfl, hstatus⟩
  · intro hrows userId friendId ⟨row, hrow, huser, hfriend, hstatus⟩
    rw [← huser, ← hfriend]
    exact hrows row hrow hstatus

instance (t : Tables) : Decidable (Symmetric t) :=
  decidable_of_iff _ symmetric_iff_rows.symm

section

variable {mysql : MySQL} {t t' : Tables} {userId friendId : Int32}

theorem befriended_addFriend (h : addFriend mysql t userId friendId = some t')
    {userId' friendId' : Int32} : Befriended t' userId' friendId'
      ↔ Befriended t userId' friendId' ∨ (userId = userId' ∧ friendId = friendId') := by
  rw [(addFriend_eq_some.mp h).2.2]
  simp [Befriended, or_and_right, exists_or]

theorem befriended_congr (h : t'.friends = t.friends) :
    Befriended t' userId friendId ↔ Befriended t userId friendId := by
  unfold Befriended
  rw [h]

/-- Whether the second insert goes through is up to MySQL: the users are there. -/
theorem isSome_addFriend_swap (h : addFriend mysql t userId friendId = some t') :
    (addFriend mysql t' friendId userId).isSome
      ↔ mysql.executes (.insertFriend friendId userId) = true := by
  obtain ⟨_, husers, rfl⟩ := addFriend_eq_some.mp h
  simp only [Option.isSome_iff_exists, addFriend_eq_some]
  constructor
  · intro ⟨_, hexecutes, _⟩
    exact hexecutes
  · intro hexecutes
    exact ⟨_, hexecutes, husers.symm, rfl⟩

/-- Both rows keep the table symmetric, and so does a row that has its counterpart. -/
theorem symmetric_of_befriended (hs : Symmetric t)
    (h : addFriend mysql t userId friendId = some t') (hback : Befriended t friendId userId) :
    Symmetric t' := by
  intro v g hvg
  rw [befriended_addFriend h] at hvg ⊢
  rcases hvg with hold | ⟨rfl, rfl⟩
  · exact Or.inl (hs v g hold)
  · exact Or.inl hback

theorem symmetric_of_both {t'' : Tables} (hs : Symmetric t)
    (h : addFriend mysql t userId friendId = some t')
    (h' : addFriend mysql t' friendId userId = some t'') : Symmetric t'' := by
  intro v g hvg
  rw [befriended_addFriend h', befriended_addFriend h] at hvg ⊢
  rcases hvg with (hold | ⟨rfl, rfl⟩) | ⟨rfl, rfl⟩
  · exact Or.inl (Or.inl (hs v g hold))
  · exact Or.inr ⟨rfl, rfl⟩
  · exact Or.inl (Or.inr ⟨rfl, rfl⟩)

end

/-! ## What adding a friend comes to -/

/-- `handle_add_friend` gets past the first insert. -/
def InsertsFirst (mysql : MySQL) (t : Tables) (userId friendId : Int32) : Prop :=
  userId ≠ 0 ∧ userId ≠ friendId ∧ (getUserById mysql t friendId).isSome
    ∧ (addFriend mysql t userId friendId).isSome

/-- Nothing is inserted and the answer is an error, or the first row is, and the
answer is SUCCESS whatever becomes of the second. -/
theorem AddsFriend.cases {collation : Collation} {hash : Sha256} {mysql : MySQL}
    {redis : CacheCommand → Bool} {now : Int64} {t t'' : Tables} {userId friendId : Int32}
    {errorCode : ErrorCode}
    (h : AddsFriend (world collation hash mysql redis now) t userId friendId errorCode t'') :
    (errorCode ≠ .success ∧ t'' = t ∧ ¬ InsertsFirst mysql t userId friendId)
      ∨ (errorCode = .success ∧ InsertsFirst mysql t userId friendId
        ∧ ∃ t', Database.addFriend mysql t userId friendId = some t'
          ∧ t'' = (Database.addFriend mysql t' friendId userId).getD t') := by
  cases h with
  | unauthenticated hauth =>
    exact Or.inl ⟨by decide, rfl, fun hfirst => hfirst.1 hauth⟩
  | self hauth hself =>
    exact Or.inl ⟨by decide, rfl, fun hfirst => hfirst.2.1 hself⟩
  | unknown hauth hself hfriend =>
    refine Or.inl ⟨by decide, rfl, fun hfirst => ?_⟩
    exact absurd hfriend (Option.isSome_iff_ne_none.mp hfirst.2.2.1)
  | present hauth hself hfriend hnone =>
    refine Or.inl ⟨by decide, rfl, fun hfirst => ?_⟩
    exact absurd hnone (Option.isSome_iff_ne_none.mp hfirst.2.2.2)
  | @added t' hauth hself hfriend hsome =>
    have hinserted : (Database.addFriend mysql t userId friendId).isSome :=
      Option.isSome_iff_exists.mpr ⟨t', hsome⟩
    exact Or.inr ⟨rfl, ⟨hauth, hself, hfriend, hinserted⟩, t', hsome, rfl⟩

/-! ## Symmetry -/

/-- Afterwards the table is symmetric, and a friend was added with SUCCESS only if
both rows are there. -/
def KeepsSymmetric (s : ChatServer Tables) (d : Dispatched) (s' : ChatServer Tables) : Prop :=
  Symmetric s'.db ∧ ∀ friendId, d.request = some (.addFriend friendId) →
    AnswersWith s s' .addFriendResp .success →
      Befriended s'.db (s.conn d.conn).userId friendId
        ∧ Befriended s'.db friendId (s.conn d.conn).userId

/-- Behind the first insert, the second is executed, or its row is there already. -/
def SecondRowThere (s : ChatServer Tables) (d : Dispatched) : Prop :=
  ∀ friendId, d.request = some (.addFriend friendId) →
    InsertsFirst d.mysql s.db (s.conn d.conn).userId friendId →
      d.mysql.executes (.insertFriend friendId (s.conn d.conn).userId) = true
        ∨ Befriended s.db friendId (s.conn d.conn).userId

section

variable {collation : Collation} {hash : Sha256} {s s' : ChatServer Tables} {d : Dispatched}

theorem step_symmetric_iff (hs : Symmetric s.db) (h : dispatch collation hash s d = some s') :
    KeepsSymmetric s d s' ↔ SecondRowThere s d := by
  by_cases hadd : ∃ friendId, d.request = some (.addFriend friendId)
  · obtain ⟨friendId, hr⟩ := hadd
    obtain ⟨errorCode, hadds, hpassed⟩ := dispatch_addFriend h hr
    unfold KeepsSymmetric SecondRowThere
    simp only [hr, Option.some_inj, Request.addFriend.injEq, forall_eq',
      answersWith_iff hpassed (carries_addFriendResponse _)]
    rcases hadds.cases with ⟨herror, hdb, hfirst⟩ | ⟨rfl, hfirst, t', ht', hdb⟩
    · rw [hdb]
      exact iff_of_true ⟨hs, fun hsuccess => absurd hsuccess.symm herror⟩
        fun hinserts => absurd hinserts hfirst
    · have hforth : Befriended t' (s.conn d.conn).userId friendId :=
        (befriended_addFriend ht').mpr (Or.inr ⟨rfl, rfl⟩)
      simp only [hfirst, forall_const]
      cases hback : addFriend d.mysql t' friendId (s.conn d.conn).userId with
      | some t'' =>
        rw [hback, Option.getD_some] at hdb
        rw [hdb]
        have hexecutes := (isSome_addFriend_swap ht').mp (Option.isSome_iff_exists.mpr ⟨_, hback⟩)
        refine iff_of_true ⟨symmetric_of_both hs ht' hback, ?_⟩ (Or.inl hexecutes)
        exact ⟨(befriended_addFriend hback).mpr (Or.inl hforth),
          (befriended_addFriend hback).mpr (Or.inr ⟨rfl, rfl⟩)⟩
      | none =>
        -- The first row stands alone, unless its counterpart was there before.
        rw [hback, Option.getD_none] at hdb
        rw [hdb]
        have hexecutes :
            ¬ d.mysql.executes (.insertFriend friendId (s.conn d.conn).userId) = true := by
          rw [← isSome_addFriend_swap ht', hback]
          exact Bool.false_ne_true
        rw [or_iff_right hexecutes]
        constructor
        · intro ⟨_, _, hthere⟩
          refine ((befriended_addFriend ht').mp hthere).resolve_right fun ⟨hself, _⟩ => ?_
          exact hfirst.2.1 hself
        · intro hthere
          exact ⟨symmetric_of_befriended hs ht' hthere, hforth,
            (befriended_addFriend ht').mpr (Or.inl hthere)⟩
  · have hother : ∀ friendId, d.request ≠ some (.addFriend friendId) :=
      fun friendId hr => hadd ⟨friendId, hr⟩
    have hfriends := friends_of_dispatch h hother
    refine iff_of_true ⟨fun v g => ?_, fun friendId hr => absurd hr (hother friendId)⟩
      fun friendId hr => absurd hr (hother friendId)
    rw [befriended_congr hfriends, befriended_congr hfriends]
    exact hs v g

/-- **Friendship is symmetric exactly as long as the second insert is executed**:
over any packets from any connections, with any outcome of each statement. -/
theorem symmetric_iff (hs : Symmetric s.db) (ds : List Dispatched) :
    EachStep (dispatch collation hash) KeepsSymmetric s ds
      ↔ EachStep (dispatch collation hash) (fun s d _ => SecondRowThere s d) s ds := by
  refine eachStep_iff (E := fun _ => True) (I := fun _ => True) (J := fun s => Symmetric s.db)
    ?_ ?_ ?_ (fun _ _ => trivial) trivial hs
  · exact fun _ _ _ => trivial
  · exact fun _ _ _ _ hkeeps => hkeeps.1
  · exact fun _ _ hsymmetric h => step_symmetric_iff hsymmetric h

end

/-- User 2 adds user 3 to the friends of `init.sql`. -/
theorem symmetric_iff_initSql :
    EachStep (dispatch utf8 sampleHash) KeepsSymmetric (serving 2) [sent 1 (.addFriend 3) reachable]
      ↔ EachStep (dispatch utf8 sampleHash) (fun s d _ => SecondRowThere s d) (serving 2)
        [sent 1 (.addFriend 3) reachable] :=
  symmetric_iff (s := serving 2) (by decide) _

/-- The database goes away between the two inserts. -/
def gone : MySQL :=
  { reachable with executes := fun statement => statement ≠ .insertFriend 3 2 }

/-- User 2 is told that user 3 was added, who knows nothing of it. -/
theorem not_symmetric_gone : Symmetric (serving 2).db
    ∧ ¬ EachStep (dispatch utf8 sampleHash) KeepsSymmetric (serving 2)
      [sent 1 (.addFriend 3) gone] := by
  refine ⟨by decide, fun h => ?_⟩
  have hrun : (dispatch utf8 sampleHash (serving 2) (sent 1 (.addFriend 3) gone)).map
      (fun s => decide (Symmetric s.db)) = some false := by decide
  obtain ⟨s', hs', hasymmetric⟩ := Option.map_eq_some_iff.mp hrun
  exact of_decide_eq_false hasymmetric (h s' hs').1.1

/-! ## Uniqueness -/

/-- The users and friends of all rows. -/
def pairs (t : Tables) : List (Int32 × Int32) :=
  t.friends.map fun row => (row.userId, row.friendId)

/-- What the foreign keys of `friends` refer to is there. -/
def ForeignKeys (t : Tables) : Prop :=
  ∀ row ∈ t.friends, t.hasUser row.userId = true ∧ t.hasUser row.friendId = true

instance (t : Tables) : Decidable (ForeignKeys t) :=
  inferInstanceAs (Decidable (∀ row ∈ t.friends, _))

section

variable {mysql : MySQL} {t t' : Tables} {userId friendId : Int32}

theorem pairs_addFriend (h : addFriend mysql t userId friendId = some t') :
    pairs t' = pairs t ++ [(userId, friendId)] := by
  rw [(addFriend_eq_some.mp h).2.2]
  exact List.map_append

theorem ForeignKeys.of_mem_pairs (ht : ForeignKeys t) (h : (userId, friendId) ∈ pairs t) :
    t.hasUser userId = true ∧ t.hasUser friendId = true := by
  obtain ⟨row, hrow, heq⟩ := List.mem_map.mp h
  cases heq
  exact ht row hrow

theorem ForeignKeys.addFriend (ht : ForeignKeys t)
    (h : addFriend mysql t userId friendId = some t') : ForeignKeys t' := by
  obtain ⟨_, husers, rfl⟩ := addFriend_eq_some.mp h
  intro row hrow
  rcases List.mem_append.mp hrow with hrow | hrow
  · exact ht row hrow
  · rw [List.mem_singleton.mp hrow]
    exact husers

theorem ForeignKeys.getD_addFriend (ht : ForeignKeys t) :
    ForeignKeys ((Database.addFriend mysql t userId friendId).getD t) := by
  cases h : Database.addFriend mysql t userId friendId with
  | none => exact ht
  | some t' => exact ht.addFriend h

/-- A user's friends are different if the pairs are. -/
theorem nodup_joinFriends (ht : (pairs t).Nodup) (userId : Int32) :
    ((joinFriends t userId).map fun pair => pair.1.friendId).Nodup := by
  have hrows : (t.friends.filter fun row => row.userId = userId ∧ row.status = 1).Pairwise
      fun row other => row.friendId ≠ other.friendId := by
    refine ((List.pairwise_map.mp ht).filter _).imp_of_mem fun {row other} hrow hother hne heq => ?_
    have huser := of_decide_eq_true (List.mem_filter.mp hrow).2
    have huser' := of_decide_eq_true (List.mem_filter.mp hother).2
    exact hne (Prod.ext (huser.1.trans huser'.1.symm) heq)
  refine List.pairwise_map.mpr (hrows.filterMap _ fun row other hne pair hpair pair' hpair' => ?_)
  obtain ⟨_, _, rfl⟩ := Option.map_eq_some_iff.mp hpair
  obtain ⟨_, _, rfl⟩ := Option.map_eq_some_iff.mp hpair'
  exact hne

theorem nodup_getFriends (ht : (pairs t).Nodup) {friends : List Friend}
    (h : getFriends mysql t userId = some friends) : (friends.map Friend.friendId).Nodup := by
  obtain ⟨_, heq⟩ := Option.ite_none_right_eq_some.mp h
  rw [← Option.some_inj.mp heq, List.map_map]
  have hordered : ((mysql.order (joinFriends t userId)).map fun pair => pair.1.friendId).Nodup :=
    ((mysql.order_perm _).map _).nodup_iff.mpr (nodup_joinFriends ht userId)
  exact ((List.takeWhile_sublist _).map _).nodup hordered

end

/-- Afterwards no pair is there twice; a friend who was there already has not been
added again, and the user was told so; no friend is listed twice. -/
structure KeepsUnique (s : ChatServer Tables) (d : Dispatched) (s' : ChatServer Tables) : Prop where
  nodup : (pairs s'.db).Nodup
  existing : ∀ friendId, d.request = some (.addFriend friendId) → (s.conn d.conn).userId ≠ 0 →
    ((s.conn d.conn).userId, friendId) ∈ pairs s.db →
      AnswersWith s s' .addFriendResp .friendRequestExists ∧ s'.db.friends = s.db.friends
  lists : ∀ p ∈ passedToSend s s', commandOf p.2 = some .friendListResp →
    ∃ resp : FriendListResponse, p.2 = encode {
        version := VERSION
        command := .friendListResp
        data := encodeFriendListResponse resp }
      ∧ (resp.friends.map Prod.fst).Nodup

/-- Nobody adds a friend again, or adds somebody found who has added them. -/
def AddsNew (s : ChatServer Tables) (d : Dispatched) : Prop :=
  ∀ friendId, d.request = some (.addFriend friendId) → (s.conn d.conn).userId ≠ 0 →
    ((s.conn d.conn).userId, friendId) ∉ pairs s.db
      ∧ ((friendId, (s.conn d.conn).userId) ∈ pairs s.db →
        getUserById d.mysql s.db friendId = none)

section

variable {collation : Collation} {hash : Sha256} {mysql : MySQL} {t t'' : Tables}
  {userId friendId : Int32}

/-- Two rows for a new pair of users. -/
theorem nodup_both_iff {l : List (Int32 × Int32)} (hl : l.Nodup) (hself : userId ≠ friendId) :
    ((l ++ [(userId, friendId)]) ++ [(friendId, userId)]).Nodup
      ↔ (userId, friendId) ∉ l ∧ (friendId, userId) ∉ l := by
  have hne : (friendId, userId) ≠ (userId, friendId) := fun heq =>
    hself (congrArg Prod.snd heq)
  simp only [← List.concat_eq_append, List.nodup_concat, hl, and_true]
  simp only [List.concat_eq_append, List.mem_append, List.mem_singleton, hne, or_false]
  exact and_comm

theorem AddsFriend.nodup_iff {redis : CacheCommand → Bool} {now : Int64} {errorCode : ErrorCode}
    (hexecutes : ∀ statement, mysql.executes statement = true) (hkeys : ForeignKeys t)
    (ht : (pairs t).Nodup)
    (h : AddsFriend (world collation hash mysql redis now) t userId friendId errorCode t'') :
    ((pairs t'').Nodup ∧ (userId ≠ 0 → (userId, friendId) ∈ pairs t →
        ErrorCode.friendRequestExists = errorCode ∧ t''.friends = t.friends))
      ↔ (userId ≠ 0 → (userId, friendId) ∉ pairs t
        ∧ ((friendId, userId) ∈ pairs t → getUserById mysql t friendId = none)) := by
  cases h with
  | unauthenticated hauth =>
    exact iff_of_true ⟨ht, fun h0 => absurd hauth h0⟩ fun h0 => absurd hauth h0
  | self hauth hself =>
    subst hself
    constructor
    · intro ⟨_, hexists⟩ _
      have hnew : (userId, userId) ∉ pairs t := fun hmem =>
        absurd (hexists hauth hmem).1 (by decide)
      exact ⟨hnew, fun hmem => absurd hmem hnew⟩
    · intro hnew
      exact ⟨ht, fun h0 hmem => absurd hmem (hnew h0).1⟩
  | unknown hauth hself hfriend =>
    constructor
    · intro ⟨_, hexists⟩ _
      refine ⟨fun hmem => absurd (hexists hauth hmem).1 (by decide), fun _ => hfriend⟩
    · intro hnew
      exact ⟨ht, fun h0 hmem => absurd hmem (hnew h0).1⟩
  | present hauth hself hfriend hnone =>
    -- The insert fails for the foreign keys alone: neither row can be there.
    have hmissing : ¬ (t.hasUser userId = true ∧ t.hasUser friendId = true) := fun husers =>
      Option.eq_none_iff_forall_not_mem.mp hnone _
        (addFriend_eq_some.mpr ⟨hexecutes _, husers, rfl⟩)
    refine iff_of_true ⟨ht, fun _ _ => ⟨rfl, rfl⟩⟩ fun _ => ⟨fun hmem => ?_, fun hmem => ?_⟩
    · exact absurd (hkeys.of_mem_pairs hmem) hmissing
    · exact absurd (hkeys.of_mem_pairs hmem).symm hmissing
  | @added t' hauth hself hfriend hsome =>
    obtain ⟨t'', hback⟩ := Option.isSome_iff_exists.mp
      ((isSome_addFriend_swap hsome).mpr (hexecutes _))
    show (((pairs ((Database.addFriend mysql t' friendId userId).getD t')).Nodup ∧ _) ↔ _)
    rw [hback, Option.getD_some, pairs_addFriend hback, pairs_addFriend hsome,
      nodup_both_iff ht hself]
    constructor
    · intro ⟨⟨hforth, hback⟩, _⟩ _
      exact ⟨hforth, fun hmem => absurd hmem hback⟩
    · intro hnew
      obtain ⟨hforth, hfound⟩ := hnew hauth
      refine ⟨⟨hforth, fun hmem => ?_⟩, fun _ hmem => absurd hmem hforth⟩
      exact absurd (hfound hmem) (Option.isSome_iff_ne_none.mp hfriend)

end

section

variable {collation : Collation} {hash : Sha256} {s s' : ChatServer Tables} {d : Dispatched}

theorem step_foreignKeys (hs : ForeignKeys s.db) (h : dispatch collation hash s d = some s') :
    ForeignKeys s'.db := by
  by_cases hadd : ∃ friendId, d.request = some (.addFriend friendId)
  · obtain ⟨friendId, hr⟩ := hadd
    obtain ⟨errorCode, hadds, _⟩ := dispatch_addFriend h hr
    rcases hadds.cases with ⟨_, hdb, _⟩ | ⟨_, _, t', ht', hdb⟩
    · rw [hdb]
      exact hs
    · rw [hdb]
      exact (hs.addFriend ht').getD_addFriend
  · intro row hrow
    rw [friends_of_dispatch h fun friendId hr => hadd ⟨friendId, hr⟩] at hrow
    obtain ⟨huser, hfriend⟩ := hs row hrow
    exact ⟨hasUser_of_dispatch h huser, hasUser_of_dispatch h hfriend⟩

theorem step_unique_iff (hexecutes : ∀ statement, d.mysql.executes statement = true)
    (hkeys : ForeignKeys s.db) (hs : (pairs s.db).Nodup)
    (h : dispatch collation hash s d = some s') : KeepsUnique s d s' ↔ AddsNew s d := by
  -- A list is unique for the rows that it is made of; the rest is about ADD_FRIEND_REQ.
  have hlists : ∀ p ∈ passedToSend s s', commandOf p.2 = some .friendListResp →
      ∃ resp : FriendListResponse, p.2 = encode {
          version := VERSION
          command := .friendListResp
          data := encodeFriendListResponse resp }
        ∧ (resp.friends.map Prod.fst).Nodup := by
    intro p hp hcommand
    obtain ⟨resp, hresp, rfl⟩ := friendList_of_dispatch h hp hcommand
    refine ⟨resp, rfl, ?_⟩
    cases hresp with
    | refused herror => exact List.nodup_nil
    | listed hauth hsome =>
      rw [List.map_map]
      exact nodup_getFriends hs hsome
  by_cases hadd : ∃ friendId, d.request = some (.addFriend friendId)
  · obtain ⟨friendId, hr⟩ := hadd
    obtain ⟨errorCode, hadds, hpassed⟩ := dispatch_addFriend h hr
    have hiff := hadds.nodup_iff hexecutes hkeys hs
    constructor
    · intro hkeeps friendId' hr'
      rw [hr] at hr'
      cases hr'
      refine hiff.mp ⟨hkeeps.nodup, fun hauth hmem => ?_⟩
      obtain ⟨hanswer, hfriends⟩ := hkeeps.existing friendId hr hauth hmem
      exact ⟨(answersWith_iff hpassed (carries_addFriendResponse _)).mp hanswer, hfriends⟩
    · intro hnew
      obtain ⟨hnodup, hexisting⟩ := hiff.mpr (hnew friendId hr)
      refine ⟨hnodup, fun friendId' hr' hauth hmem => ?_, hlists⟩
      rw [hr] at hr'
      cases hr'
      obtain ⟨hanswer, hfriends⟩ := hexisting hauth hmem
      exact ⟨(answersWith_iff hpassed (carries_addFriendResponse _)).mpr hanswer, hfriends⟩
  · have hother : ∀ friendId, d.request ≠ some (.addFriend friendId) :=
      fun friendId hr => hadd ⟨friendId, hr⟩
    refine iff_of_true ⟨?_, fun friendId hr => absurd hr (hother friendId), hlists⟩
      fun friendId hr => absurd hr (hother friendId)
    unfold pairs
    rw [friends_of_dispatch h hother]
    exact hs

/-- **No pair is there twice exactly as long as only new friends are added**: over
any packets from any connections, with every statement executed that the tables
allow. -/
theorem unique_iff (hkeys : ForeignKeys s.db) (hs : (pairs s.db).Nodup) {ds : List Dispatched}
    (hexecutes : ∀ d ∈ ds, ∀ statement, d.mysql.executes statement = true) :
    EachStep (dispatch collation hash) KeepsUnique s ds
      ↔ EachStep (dispatch collation hash) (fun s d _ => AddsNew s d) s ds := by
  refine eachStep_iff (E := fun d => ∀ statement, d.mysql.executes statement = true)
    (I := fun s => ForeignKeys s.db) (J := fun s => (pairs s.db).Nodup) ?_ ?_ ?_ hexecutes hkeys hs
  · exact fun _ hkeys h => step_foreignKeys hkeys h
  · exact fun _ _ _ _ hkeeps => hkeeps.nodup
  · exact fun hexecutes hkeys hnodup h => step_unique_iff hexecutes hkeys hnodup h

end

/-- User 2 adds user 3; somebody who has not logged in adds nobody. -/
theorem unique_iff_initSql :
    EachStep (dispatch utf8 sampleHash) KeepsUnique (serving 2)
        [sent 1 (.addFriend 3) reachable, sent 2 (.addFriend 1) reachable]
      ↔ EachStep (dispatch utf8 sampleHash) (fun s d _ => AddsNew s d) (serving 2)
        [sent 1 (.addFriend 3) reachable, sent 2 (.addFriend 1) reachable] := by
  refine unique_iff (s := serving 2) (by decide) (by decide) fun d hd statement => ?_
  rcases List.mem_cons.mp hd with rfl | hd
  · rfl
  · rw [List.mem_singleton.mp hd]
    rfl

/-- User 2 adds user 1, who is a friend already: the rows are there twice. -/
theorem not_unique_again : ForeignKeys (serving 2).db ∧ (pairs (serving 2).db).Nodup
    ∧ (∀ statement, reachable.executes statement = true)
    ∧ ¬ EachStep (dispatch utf8 sampleHash) KeepsUnique (serving 2)
      [sent 1 (.addFriend 1) reachable] := by
  refine ⟨by decide, by decide, fun _ => rfl, fun h => ?_⟩
  have hrun : (dispatch utf8 sampleHash (serving 2) (sent 1 (.addFriend 1) reachable)).map
      (fun s => decide (pairs s.db).Nodup) = some false := by decide
  obtain ⟨s', hs', htwice⟩ := Option.map_eq_some_iff.mp hrun
  exact of_decide_eq_false htwice (h s' hs').1.nodup

end QQChat.Database
