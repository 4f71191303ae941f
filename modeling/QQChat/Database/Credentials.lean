import Mathlib.Data.List.Forall2
import Mathlib.Data.List.TakeWhile
import Mathlib.Data.Set.Function
import QQChat.Database.Dispatch
import QQChat.Lib.Trace

/-!
# Credentials

`verify_user` after any history of registrations, resets and other requests, from an
empty `users` table. What the answers have promised is a list of accounts: a name, a
user and a password for each REGISTER_RESP with SUCCESS, the password replaced by
each RESET_PASSWORD_RESP with SUCCESS (`recorded`). The rows of the table are these
accounts, with the hash for the password (`step_kept`).

`verify_user` can do with them what it should as long as the names fit its buffer:
the column takes 64 characters, the buffer 64 bytes, and a string that fills it is
not terminated, nor does one with a zero byte come back whole (`correct_iff`).

Mirroring notes:
- The hash is taken to have no collisions on a set of passwords, those of the history
  and the one that is tried. A digest of 32 bytes cannot be injective on all.
-/

namespace QQChat.Database

open Server ChatServer Trace

/-! ## What the answers have promised -/

structure Account where
  name : Bytes
  userId : Int32
  password : Bytes
  deriving DecidableEq, Repr

/-- The accounts after an answer to this packet, if it was one of SUCCESS. -/
def recorded (collation : Collation) (accounts : List Account) (d : Dispatched)
    (s s' : ChatServer Tables) : List Account :=
  match d.request with
  | some (.register req) =>
    match (passedToSend s s').findSome? fun p => userIdOf .registerResp p.2 with
    | some userId => accounts ++ [{ name := req.username, userId, password := req.password }]
    | none => accounts
  | some (.resetPassword req) =>
    if AnswersWith s s' .resetPasswordResp .success then
      accounts.map fun a =>
        if collation.eq a.name req.username then { a with password := req.newPassword } else a
    else accounts
  | _ => accounts

/-- A packet is handed over, and its answer is recorded. -/
def auditedStep (collation : Collation) (hash : Sha256) :
    ChatServer Tables × List Account → Dispatched → Option (ChatServer Tables × List Account)
  | (s, accounts), d =>
    (dispatch collation hash s d).map fun s' => (s', recorded collation accounts d s s')

/-- The password that a packet would set. -/
def Dispatched.newPassword (d : Dispatched) : Option Bytes :=
  match d.request with
  | some (.register req) => some req.password
  | some (.resetPassword req) => some req.newPassword
  | _ => none

/-- What `verify_user` should do: let a user in by the password that was last set, and
nobody else. -/
structure Verifies (collation : Collation) (hash : Sha256) (passwords : Set Bytes) (mysql : MySQL)
    (t : Tables) (accounts : List Account) : Prop where
  registered : ∀ a ∈ accounts, ∀ name, collation.eq a.name name = true → ∀ password ∈ passwords,
    (verifyUser collation hash mysql t name password
        = some { userId := a.userId, username := a.name }
      ↔ password = a.password)
  refused : ∀ a ∈ accounts, ∀ name, collation.eq a.name name = true → ∀ password ∈ passwords,
    password ≠ a.password → verifyUser collation hash mysql t name password = none
  unregistered : ∀ name, (∀ a ∈ accounts, collation.eq a.name name = false) → ∀ password,
    verifyUser collation hash mysql t name password = none

/-- Whenever every statement is executed, and whatever the memory holds. -/
def Correct (collation : Collation) (hash : Sha256) (passwords : Set Bytes) (t : Tables)
    (accounts : List Account) : Prop :=
  ∀ mysql : MySQL, (∀ statement, mysql.executes statement = true) →
    Verifies collation hash passwords mysql t accounts

/-- A name is read back from a buffer of 64 bytes as it was written. -/
def NameFits (name : Bytes) : Prop :=
  name.length < 64 ∧ 0 ∉ name

instance (name : Bytes) : Decidable (NameFits name) :=
  inferInstanceAs (Decidable (_ ∧ _))

/-- What fits the buffer of a name comes back whole, whatever is behind it, exactly if
there is room for the zero byte that ends it and no other. -/
theorem nameFits_iff {name : Bytes} :
    (fits 64 name = true ∧ ∀ behind, cString 64 name behind = name) ↔ NameFits name :=
  fitsBuffer_iff

/-! ## The rows are the accounts -/

/-- The row of an account. -/
structure Holds (hash : Sha256) (row : UserRow) (a : Account) : Prop where
  name : row.username = a.name
  userId : row.userId.val = a.userId
  passwordHash : row.passwordHash = sha256 hash a.password

structure Kept (collation : Collation) (hash : Sha256) (passwords : Set Bytes) (t : Tables)
    (accounts : List Account) : Prop where
  rows : List.Forall₂ (Holds hash) t.users accounts
  names : t.users.Pairwise fun row other => collation.eq row.username other.username = false
  passwords : ∀ a ∈ accounts, a.password ∈ passwords

/-- Every element has its counterpart. -/
theorem exists_of_forall₂ {α β : Type} {R : α → β → Prop} {l : List α} {l' : List β}
    (h : List.Forall₂ R l l') {b : β} (hb : b ∈ l') : ∃ a ∈ l, R a b := by
  induction h with
  | nil => cases hb
  | cons hab _ ih =>
    rcases List.mem_cons.mp hb with rfl | hb
    · exact ⟨_, List.mem_cons_self .., hab⟩
    · obtain ⟨a, ha, hR⟩ := ih hb
      exact ⟨a, List.mem_cons_of_mem _ ha, hR⟩

section

variable {collation : Collation} {hash : Sha256} {passwords : Set Bytes} {mysql : MySQL}
  {t t' : Tables} {accounts : List Account} {name password : Bytes}

/-- A row with the name is the one that is found. -/
theorem userNamed_eq_some {row : UserRow}
    (hnames : t.users.Pairwise fun row other => collation.eq row.username other.username = false)
    (hrow : row ∈ t.users) (hname : collation.eq row.username name = true) :
    t.userNamed collation name = some row := by
  obtain ⟨before, after, hsplit⟩ := List.append_of_mem hrow
  refine List.find?_eq_some_iff_append.mpr ⟨hname, before, after, hsplit, fun other hother => ?_⟩
  rw [hsplit, List.pairwise_append] at hnames
  have hapart := hnames.2.2 other hother row (List.mem_cons_self ..)
  rw [Bool.not_eq_true']
  by_contra hsame
  have hboth := collation.trans (Bool.not_eq_false _ ▸ hsame) (collation.symm hname)
  rw [hapart] at hboth
  cases hboth

/-- What `verify_user` makes of the row of an account. -/
theorem verifyUser_of_row (hexecutes : ∀ statement, mysql.executes statement = true)
    {row : UserRow} (hrow : t.userNamed collation name = some row) {a : Account}
    (ha : Holds hash row a) :
    verifyUser collation hash mysql t name password
      = if fits 64 a.name = true ∧ hash.digest password = hash.digest a.password then
          some { userId := a.userId, username := cString 64 a.name mysql.behind }
        else none := by
  have hlength : row.passwordHash.length < 256 := by
    rw [ha.passwordHash, length_sha256]
    omega
  have hzero : 0 ∉ row.passwordHash := by
    rw [ha.passwordHash]
    exact zero_notMem_sha256 hash _
  have hfits : fits 256 row.passwordHash = true := decide_eq_true (Nat.le_of_lt hlength)
  have hmatch : row.passwordHash = sha256 hash password
      ↔ hash.digest password = hash.digest a.password := by
    rw [ha.passwordHash, sha256_inj, eq_comm]
  unfold verifyUser
  rw [if_pos (hexecutes _), hrow]
  dsimp only
  rw [cString_eq hlength hzero, ← ha.name, ← ha.userId]
  by_cases hname : fits 64 row.username = true
  · rw [if_pos ⟨hname, hfits⟩]
    by_cases hsame : hash.digest password = hash.digest a.password
    · rw [if_pos (hmatch.mpr hsame), if_pos ⟨hname, hsame⟩]
    · rw [if_neg (mt hmatch.mp hsame), if_neg fun h => hsame h.2]
  · rw [if_neg fun h => hname h.1, if_neg fun h => hname h.1]

/-- Where the names fit, `verify_user` does what it should. -/
theorem Kept.verifies (ht : Kept collation hash passwords t accounts)
    (hash_injOn : Set.InjOn hash.digest passwords)
    (hexecutes : ∀ statement, mysql.executes statement = true)
    (hnames : ∀ a ∈ accounts, NameFits a.name) :
    Verifies collation hash passwords mysql t accounts := by
  refine ⟨?_, ?_, ?_⟩
  · intro a ha name hname password hpassword
    obtain ⟨row, hrow, hholds⟩ := exists_of_forall₂ ht.rows ha
    obtain ⟨hfits, hback⟩ := nameFits_iff.mpr (hnames a ha)
    have hfound := userNamed_eq_some ht.names hrow (hholds.name ▸ hname)
    rw [verifyUser_of_row hexecutes hfound hholds, hback, Option.ite_none_right_eq_some]
    constructor
    · intro ⟨⟨_, hsame⟩, _⟩
      exact hash_injOn hpassword (ht.passwords a ha) hsame
    · intro heq
      exact ⟨⟨hfits, congrArg hash.digest heq⟩, rfl⟩
  · intro a ha name hname password hpassword hne
    obtain ⟨row, hrow, hholds⟩ := exists_of_forall₂ ht.rows ha
    have hfound := userNamed_eq_some ht.names hrow (hholds.name ▸ hname)
    rw [verifyUser_of_row hexecutes hfound hholds]
    exact if_neg fun h => hne (hash_injOn hpassword (ht.passwords a ha) h.2)
  · intro name hother password
    have hnone : t.userNamed collation name = none := by
      refine List.find?_eq_none.mpr fun row hrow => ?_
      obtain ⟨a, ha, hholds⟩ := exists_of_forall₂ ht.rows.flip hrow
      have hfalse := hother a ha
      rw [← hholds.name] at hfalse
      exact Bool.not_eq_true _ ▸ hfalse
    unfold verifyUser
    rw [if_pos (hexecutes _), hnone]

/-- **The accounts work exactly if their names fit.** -/
theorem Kept.correct_iff (ht : Kept collation hash passwords t accounts)
    (hash_injOn : Set.InjOn hash.digest passwords) :
    Correct collation hash passwords t accounts ↔ ∀ a ∈ accounts, NameFits a.name := by
  constructor
  · intro hcorrect a ha
    obtain ⟨row, hrow, hholds⟩ := exists_of_forall₂ ht.rows ha
    have hname := collation.refl a.name
    have hfound : t.userNamed collation a.name = some row := by
      refine userNamed_eq_some ht.names hrow ?_
      rw [hholds.name]
      exact hname
    -- The right password, with anything behind the buffer.
    have hright : ∀ behind, fits 64 a.name = true ∧ cString 64 a.name behind = a.name := by
      intro behind
      have hexecutes : ∀ statement, ({ reachable with behind } : MySQL).executes statement = true :=
        fun _ => rfl
      have hverified := ((hcorrect _ hexecutes).registered a ha a.name hname a.password
        (ht.passwords a ha)).mpr rfl
      rw [verifyUser_of_row hexecutes hfound hholds, Option.ite_none_right_eq_some] at hverified
      obtain ⟨⟨hfits, _⟩, huser⟩ := hverified
      exact ⟨hfits, congrArg User.username (Option.some_inj.mp huser)⟩
    exact nameFits_iff.mp ⟨(hright []).1, fun behind => (hright behind).2⟩
  · intro hnames mysql hexecutes
    exact ht.verifies hash_injOn hexecutes hnames

end

/-! ## Every request keeps them so -/

section

variable {collation : Collation} {hash : Sha256} {passwords : Set Bytes}
  {s s' : ChatServer Tables} {accounts : List Account} {d : Dispatched}

/-- A reset leaves the names as they are. -/
theorem names_updatePassword {users : List UserRow} {passwordHash username : Bytes}
    (h : users.Pairwise fun row other => collation.eq row.username other.username = false) :
    (users.map fun row =>
        if collation.eq row.username username then { row with passwordHash } else row).Pairwise
      fun row other => collation.eq row.username other.username = false := by
  refine List.pairwise_map.mpr (h.imp fun {row other} hapart => ?_)
  have hname : ∀ row : UserRow, (if collation.eq row.username username = true then
      { row with passwordHash } else row).username = row.username := by
    intro row
    split <;> rfl
  rw [← hname row, ← hname other] at hapart
  exact hapart

/-- `username` is UNIQUE. -/
theorem names_insertUser {t : Tables} {row : UserRow} (hadmits : t.AdmitsUser collation row)
    (h : t.users.Pairwise fun row other => collation.eq row.username other.username = false) :
    (t.users ++ [row]).Pairwise
      fun row other => collation.eq row.username other.username = false := by
  obtain ⟨_, _, _, _, hunique⟩ := hadmits
  refine List.pairwise_append.mpr ⟨h, List.pairwise_singleton .., ?_⟩
  intro old hold other hother
  rw [List.mem_singleton.mp hother]
  exact (hunique old hold).2

theorem kept_register (hs : Kept collation hash passwords s.db accounts)
    (h : dispatch collation hash s d = some s') {req : RegisterRequest}
    (hr : d.request = some (.register req)) (hnew : req.password ∈ passwords) :
    Kept collation hash passwords s'.db (recorded collation accounts d s s') := by
  obtain ⟨resp, hregisters, hpassed⟩ := dispatch_register h hr
  -- What is recorded is read off the answer.
  have hanswer : (passedToSend s s').findSome? (fun p => userIdOf .registerResp p.2)
      = if resp.errorCode = .success then some resp.userId else none := by
    have hpayload : encodeRegisterResponse resp = _ ++ (_ ++ []) :=
      (encodeRegisterResponse_eq resp).trans (congrArg _ (List.append_nil _).symm)
    rw [hpassed, List.findSome?_cons, userIdOf_encode hpayload]
    by_cases hcode : resp.errorCode = .success
    · rw [if_pos hcode]
    · rw [if_neg hcode]
      rfl
  unfold recorded
  simp only [hr, hanswer]
  generalize s'.db = t' at hregisters
  cases hregisters with
  | refused herror =>
    rw [if_neg herror]
    exact hs
  | registered hsome =>
    rw [if_pos rfl]
    obtain ⟨_, hinsert, rfl⟩ := registerUser_eq_some.mp hsome
    obtain ⟨hadmits, rfl⟩ := Tables.insertUser_eq_some.mp hinsert
    refine ⟨List.rel_append hs.rows (.cons ⟨rfl, rfl, rfl⟩ .nil),
      names_insertUser hadmits hs.names, fun a ha => ?_⟩
    rcases List.mem_append.mp ha with ha | ha
    · exact hs.passwords a ha
    · rw [List.mem_singleton.mp ha]
      exact hnew

theorem kept_resetPassword (hs : Kept collation hash passwords s.db accounts)
    (h : dispatch collation hash s d = some s') {req : ResetPasswordRequest}
    (hr : d.request = some (.resetPassword req)) (hnew : req.newPassword ∈ passwords) :
    Kept collation hash passwords s'.db (recorded collation accounts d s s') := by
  obtain ⟨errorCode, hresets, hpassed⟩ := dispatch_resetPassword h hr
  unfold recorded
  simp only [hr, answersWith_iff hpassed (carries_resetPasswordResponse _)]
  generalize s'.db = t' at hresets
  cases hresets with
  | refused herror =>
    rw [if_neg (Ne.symm herror)]
    exact hs
  | reset hsome =>
    rw [if_pos rfl]
    rw [Tables.updatePassword_eq_some (resetPassword_eq_some.mp hsome).2]
    refine ⟨?_, ?_, fun a ha => ?_⟩
    · -- The same accounts change as rows.
      refine List.forall₂_map_left_iff.mpr (List.forall₂_map_right_iff.mpr ?_)
      refine hs.rows.imp fun row a hholds => ?_
      rw [hholds.name]
      split
      · exact ⟨rfl, hholds.userId, rfl⟩
      · exact hholds
    · exact names_updatePassword hs.names
    · obtain ⟨old, hold, rfl⟩ := List.mem_map.mp ha
      split
      · exact hnew
      · exact hs.passwords old hold

theorem step_kept (hs : Kept collation hash passwords s.db accounts)
    (h : dispatch collation hash s d = some s')
    (hnew : ∀ password, d.newPassword = some password → password ∈ passwords) :
    Kept collation hash passwords s'.db (recorded collation accounts d s s') := by
  have hother : (∀ req, d.request ≠ some (.register req)) →
      (∀ req, d.request ≠ some (.resetPassword req)) →
      recorded collation accounts d s s' = accounts →
        Kept collation hash passwords s'.db (recorded collation accounts d s s') := by
    intro hregister hreset heq
    have husers := users_of_dispatch h hregister hreset
    rw [heq]
    exact ⟨husers ▸ hs.rows, husers ▸ hs.names, hs.passwords⟩
  unfold Dispatched.newPassword at hnew
  cases hr : d.request with
  | none => exact hother (by simp [hr]) (by simp [hr]) (by simp [recorded, hr])
  | some r =>
    cases r with
    | register req => exact kept_register hs h hr (hnew _ (by rw [hr]))
    | resetPassword req => exact kept_resetPassword hs h hr (hnew _ (by rw [hr]))
    | _ => exact hother (by simp [hr]) (by simp [hr]) (by simp [recorded, hr])

/-- **Credentials work exactly as long as the registered names fit the buffer**: after
any history of requests, from an empty table, with any outcome of each statement. -/
theorem credentials_iff {s₀ : ChatServer Tables} (hempty : s₀.db.users = [])
    (hash_injOn : Set.InjOn hash.digest passwords) {ds : List Dispatched}
    (hnew : ∀ d ∈ ds, ∀ password, d.newPassword = some password → password ∈ passwords)
    (h : exec (auditedStep collation hash) (s₀, []) ds = some (s, accounts)) :
    Correct collation hash passwords s.db accounts ↔ ∀ a ∈ accounts, NameFits a.name := by
  have hinit : Kept collation hash passwords s₀.db [] := by
    refine ⟨?_, ?_, fun a ha => absurd ha List.not_mem_nil⟩
    · rw [hempty]
      exact .nil
    · rw [hempty]
      exact .nil
  have hkept : Kept collation hash passwords s.db accounts := by
    refine exec_invariant (I := fun state => Kept collation hash passwords state.1.db state.2)
      ?_ hnew hinit h
    intro (s, accounts) d t hd hs hstep
    obtain ⟨s', hs', rfl⟩ := Option.map_eq_some_iff.mp hstep
    exact step_kept hs hs' hd
  exact hkept.correct_iff hash_injOn

end

/-- User `bob` registers with `password123` and resets it to `x`. -/
def bob : List Dispatched :=
  [sent 1 (.register {
      username := [98, 111, 98]
      password := password123
      securityQuestion := [63]
      securityAnswer := password123 }) reachable,
    sent 1 (.resetPassword {
      username := [98, 111, 98]
      newPassword := [120]
      securityAnswer := password123 }) reachable]

theorem injOn_sampleHash : Set.InjOn sampleHash.digest {password123, [120]} := by
  have hne : sampleHash.digest password123 ≠ sampleHash.digest [120] := by decide
  intro str hstr str' hstr' heq
  rcases hstr with rfl | rfl
  · exact hstr'.resolve_right (fun hx => hne (hx ▸ heq)) |>.symm
  · exact hstr'.resolve_left (fun hx => hne (hx ▸ heq).symm) |>.symm

theorem credentials_iff_bob : ∃ s, exec (auditedStep utf8 sampleHash) (.init {}, []) bob
      = some (s, [{ name := [98, 111, 98], userId := 4, password := [120] }])
    ∧ Correct utf8 sampleHash {password123, [120]} s.db
      [{ name := [98, 111, 98], userId := 4, password := [120] }] := by
  have hrun : (exec (auditedStep utf8 sampleHash) (.init {}, []) bob).map Prod.snd
      = some [{ name := [98, 111, 98], userId := 4, password := [120] }] := by decide
  obtain ⟨⟨s, accounts⟩, hs, haccounts⟩ := Option.map_eq_some_iff.mp hrun
  cases haccounts
  refine ⟨s, hs, (credentials_iff rfl injOn_sampleHash ?_ hs).mpr (by decide)⟩
  have hnew : bob.map Dispatched.newPassword = [some password123, some [120]] := by decide
  intro d hd password hpassword
  have hmem : some password ∈ [some password123, some [120]] := by
    rw [← hnew, ← hpassword]
    exact List.mem_map_of_mem hd
  simpa using hmem

/-- The character U+4E2D, 22 times. -/
def longName : Bytes :=
  (List.replicate 22 [0xe4, 0xb8, 0xad]).flatten

/-- A name of 22 characters that takes 66 bytes: its user registers, and never gets in. -/
theorem not_correct_longName : ∃ s accounts,
    exec (auditedStep utf8 sampleHash) (.init {}, []) [sent 1 (.register {
        username := longName
        password := password123
        securityQuestion := [63]
        securityAnswer := password123 }) reachable] = some (s, accounts)
      ∧ Set.InjOn sampleHash.digest {password123}
      ∧ ¬ Correct utf8 sampleHash {password123} s.db accounts := by
  have hrun : (exec (auditedStep utf8 sampleHash) (.init {}, []) [sent 1 (.register {
        username := longName
        password := password123
        securityQuestion := [63]
        securityAnswer := password123 }) reachable]).map (fun state =>
          (state.2, verifyUser utf8 sampleHash reachable state.1.db longName password123))
      = some ([{ name := longName, userId := 4, password := password123 }], none) := by decide
  obtain ⟨⟨s, accounts⟩, hs, hfinal⟩ := Option.map_eq_some_iff.mp hrun
  injection hfinal with haccounts hverify
  refine ⟨s, accounts, hs, Set.injOn_singleton .., fun hcorrect => ?_⟩
  dsimp only at haccounts hverify
  have hverified := ((hcorrect reachable fun _ => rfl).registered
    { name := longName, userId := 4, password := password123 } (by rw [haccounts]; decide)
    longName (utf8.refl longName) password123 (Set.mem_singleton _)).mpr rfl
  rw [hverify] at hverified
  cases hverified

end QQChat.Database
