import QQChat.Database.Integrity
import QQChat.Database.Recovery
import QQChat.Server.Simulation

/-!
# What the database is for

The database as its users see it: a directory of people, found by their id or their
name, who have a password, a question with its answer, friends and messages
(`Directory`). It has no rows, no buffers, no limits on what comes back and no hash: it
knows the passwords and compares them.

The tables realize such a directory (`Realizes`) as long as the names and questions fit
the buffers they are read back into and the hash keeps the secrets apart, and then the
server over MySQL is a server over the directory, in every run and down to every packet
(`refines_directory`).

Mirroring notes:
- A statement that MySQL does not execute fails in the directory too, and the numbers
  that `AUTO_INCREMENT` gives and the order of a list of friends are whatever they are
  (`Circumstances`).
- The limits of the columns that the directory keeps are those in characters, of a name
  and a question, and in bytes, of a message. They are part of what may be said.
-/

namespace QQChat.Database

open Server ChatServer Trace

/-! ## The directory -/

structure Profile where
  username : Bytes
  password : Bytes
  securityQuestion : Bytes
  securityAnswer : Bytes
  deriving DecidableEq, Repr

structure Directory where
  profile : Int32 → Option Profile := fun _ => none
  /-- Who added whom, oldest first. -/
  friends : List (Int32 × Int32) := []
  messages : List MessageRow := []

/-- What the directory does not decide. -/
structure Circumstances where
  executes : Statement → Bool
  userId : AutoIncrement
  msgId : Int64
  arrange : List Friend → List Friend
  arrange_perm : ∀ friends, (arrange friends).Perm friends

namespace Directory

def setProfile (d : Directory) (userId : Int32) (profile : Profile) : Directory :=
  { d with profile := Function.update d.profile userId (some profile) }

@[simp] theorem profile_setProfile_self (d : Directory) (userId : Int32) (profile : Profile) :
    (d.setProfile userId profile).profile userId = some profile :=
  Function.update_self ..

@[simp] theorem profile_setProfile_of_ne (d : Directory) {userId other : Int32}
    (h : other ≠ userId) (profile : Profile) :
    (d.setProfile userId profile).profile other = d.profile other :=
  Function.update_of_ne h ..

open Classical in
/-- Whoever has this name, as the collation compares. -/
noncomputable def named (collation : Collation) (d : Directory) (username : Bytes) :
    Option (Int32 × Profile) :=
  if h : ∃ p : Int32 × Profile,
      d.profile p.1 = some p.2 ∧ collation.eq p.2.username username = true then
    some h.choose
  else none

/-- The friends that a user has added. -/
def friendsOf (d : Directory) (userId : Int32) : List Friend :=
  (d.friends.filter fun pair => pair.1 = userId).filterMap fun pair =>
    (d.profile pair.2).map fun profile => { friendId := pair.2, friendName := profile.username }

section

variable (collation : Collation) (circumstances : Circumstances) (d : Directory)

noncomputable def verifyUser (username password : Bytes) : Option User :=
  if circumstances.executes (.selectCredentials username) then
    (d.named collation username).bind fun p =>
      if p.2.password = password then some { userId := p.1, username := p.2.username } else none
  else none

def getUserById (userId : Int32) : Option User :=
  if circumstances.executes (.selectUser userId) then
    (d.profile userId).map fun profile => { userId, username := profile.username }
  else none

def addFriend (userId friendId : Int32) : Option Directory :=
  if circumstances.executes (.insertFriend userId friendId) then
    if (d.profile userId).isSome ∧ (d.profile friendId).isSome then
      some { d with friends := d.friends ++ [(userId, friendId)] }
    else none
  else none

def getFriends (userId : Int32) : Option (List Friend) :=
  if circumstances.executes (.selectFriends userId) then
    some (circumstances.arrange (d.friendsOf userId))
  else none

def sendMessage (fromId toId : Int32) (content : Bytes) : Option (Directory × Int32) :=
  if circumstances.executes (.insertMessage fromId toId content) then
    if (d.profile fromId).isSome ∧ (d.profile toId).isSome ∧ collation.text content
        ∧ ∀ other ∈ d.messages, other.msgId ≠ circumstances.msgId then
      some ({ d with
        messages := d.messages ++ [{ msgId := circumstances.msgId, fromId, toId, content }] },
        circumstances.msgId.toInt32)
    else none
  else none

open Classical in
noncomputable def registerUser (username password securityQuestion securityAnswer : Bytes) :
    Option (Directory × Int32) :=
  if circumstances.executes (.insertUser username password securityQuestion securityAnswer) then
    if collation.varchar 64 username = true ∧ collation.varchar 256 securityQuestion = true
        ∧ d.profile circumstances.userId = none ∧ d.named collation username = none then
      some (d.setProfile circumstances.userId
        { username, password, securityQuestion, securityAnswer }, circumstances.userId)
    else none
  else none

noncomputable def usernameExists (username : Bytes) : Bool :=
  circumstances.executes (.countUsername username) && (d.named collation username).isSome

noncomputable def getSecurityQuestion (username : Bytes) : Option (Bytes × Bytes) :=
  if circumstances.executes (.selectSecurityQuestion username) then
    (d.named collation username).map fun p => (p.2.securityQuestion, p.2.securityAnswer)
  else none

/-- To reset the password of nobody is no error. -/
noncomputable def resetPassword (username newPassword : Bytes) : Option Directory :=
  if circumstances.executes (.updatePassword newPassword username) then
    some ((d.named collation username).elim d fun p =>
      d.setProfile p.1 { p.2 with password := newPassword })
  else none

/-- The directory as a server's database. -/
noncomputable def pool : DatabasePool Directory where
  verifyUser := verifyUser collation circumstances
  getUserById := getUserById circumstances
  addFriend := addFriend circumstances
  getFriends := getFriends circumstances
  sendMessage := sendMessage collation circumstances
  registerUser := registerUser collation circumstances
  usernameExists := usernameExists collation circumstances
  getSecurityQuestion := getSecurityQuestion collation circumstances
  resetPassword := resetPassword collation circumstances

end

end Directory

/-! ## The tables realize it -/

/-- The row of a profile: the hashes for the secrets. -/
structure RowOf (hash : Sha256) (row : UserRow) (profile : Profile) : Prop where
  username : row.username = profile.username
  passwordHash : row.passwordHash = sha256 hash profile.password
  securityQuestion : row.securityQuestion = profile.securityQuestion
  securityAnswer : row.securityAnswer = sha256 hash profile.securityAnswer
  avatarUrl : row.avatarUrl.all (fits 256) = true

/-- What is read back is what was written, and the hash tells the secrets apart. -/
structure Profile.Keepable (secrets : Set Bytes) (profile : Profile) : Prop where
  username : NameFits profile.username
  securityQuestion : FitsBuffer 256 profile.securityQuestion
  password : profile.password ∈ secrets
  securityAnswer : profile.securityAnswer ∈ secrets

structure Realizes (collation : Collation) (hash : Sha256) (secrets : Set Bytes) (t : Tables)
    (d : Directory) : Prop where
  integrity : t.Integrity collation
  rows : ∀ row ∈ t.users, ∃ profile,
    d.profile row.userId.val = some profile ∧ RowOf hash row profile
  profiles : ∀ userId profile, d.profile userId = some profile →
    t.hasUser userId = true ∧ profile.Keepable secrets
  friends : d.friends
    = (t.friends.filter fun row => row.status = 1).map fun row => (row.userId, row.friendId)
  messages : d.messages = t.messages

section

variable {collation : Collation} {hash : Sha256} {secrets : Set Bytes} {t : Tables}
  {d : Directory}

/-- Whoever is in the directory has the row of the profile. -/
theorem Realizes.row (h : Realizes collation hash secrets t d) {userId : Int32} {profile : Profile}
    (hprofile : d.profile userId = some profile) :
    ∃ row ∈ t.users, row.userId.val = userId ∧ RowOf hash row profile := by
  obtain ⟨row, hrow, rfl⟩ := Tables.hasUser_iff.mp (h.profiles userId profile hprofile).1
  obtain ⟨profile', hprofile', hof⟩ := h.rows row hrow
  rw [hprofile] at hprofile'
  cases hprofile'
  exact ⟨row, hrow, rfl, hof⟩

theorem Realizes.isSome (h : Realizes collation hash secrets t d) (userId : Int32) :
    (d.profile userId).isSome = t.hasUser userId := by
  rw [Bool.eq_iff_iff]
  constructor
  · intro hsome
    obtain ⟨profile, hprofile⟩ := Option.isSome_iff_exists.mp hsome
    exact (h.profiles userId profile hprofile).1
  · intro huser
    obtain ⟨row, hrow, rfl⟩ := Tables.hasUser_iff.mp huser
    obtain ⟨profile, hprofile, _⟩ := h.rows row hrow
    exact Option.isSome_iff_exists.mpr ⟨profile, hprofile⟩

theorem Directory.named_spec {username : Bytes} {p : Int32 × Profile}
    (h : d.named collation username = some p) :
    d.profile p.1 = some p.2 ∧ collation.eq p.2.username username = true := by
  unfold Directory.named at h
  split at h
  next hex =>
    cases h
    exact hex.choose_spec
  next => cases h

/-- A user is found by the id as by the row. -/
theorem Realizes.withId (h : Realizes collation hash secrets t d) (userId : Int32) :
    Option.Rel (fun row profile => row.userId.val = userId ∧ RowOf hash row profile
      ∧ profile.Keepable secrets) (t.userWithId userId) (d.profile userId) := by
  cases hprofile : d.profile userId with
  | none =>
    have hnone : (t.userWithId userId).isSome = false := by
      rw [Tables.userWithId_isSome, ← h.isSome, hprofile]
      rfl
    rw [Option.isSome_eq_false_iff, Option.isNone_iff_eq_none] at hnone
    rw [hnone]
    exact .none
  | some profile =>
    obtain ⟨row, hrow, hid, hof⟩ := h.row hprofile
    rw [h.integrity.userWithId_eq_some.mpr ⟨hrow, hid⟩]
    exact .some ⟨hid, hof, (h.profiles userId profile hprofile).2⟩

/-- A user is found by the name as by the row. -/
theorem Realizes.named (h : Realizes collation hash secrets t d) (username : Bytes) :
    Option.Rel (fun row p => row.userId.val = p.1 ∧ d.profile p.1 = some p.2 ∧ RowOf hash row p.2
      ∧ p.2.Keepable secrets) (t.userNamed collation username) (d.named collation username) := by
  cases hrow : t.userNamed collation username with
  | none =>
    cases hnamed : d.named collation username with
    | none => exact .none
    | some p =>
      obtain ⟨hprofile, hname⟩ := Directory.named_spec hnamed
      obtain ⟨row, hmem, _, hof⟩ := h.row hprofile
      rw [← hof.username] at hname
      rw [h.integrity.userNamed_eq_some.mpr ⟨hmem, hname⟩] at hrow
      cases hrow
  | some row =>
    obtain ⟨hmem, hname⟩ := h.integrity.userNamed_eq_some.mp hrow
    obtain ⟨profile, hprofile, hof⟩ := h.rows row hmem
    cases hnamed : d.named collation username with
    | none =>
      unfold Directory.named at hnamed
      split at hnamed
      next => cases hnamed
      next hnobody =>
        refine absurd ⟨(row.userId.val, profile), hprofile, ?_⟩ hnobody
        rw [← hof.username]
        exact hname
    | some p =>
      obtain ⟨hprofile', hname'⟩ := Directory.named_spec hnamed
      obtain ⟨row', hmem', hid', hof'⟩ := h.row hprofile'
      -- Names are unique, so this is the row.
      rw [← hof'.username] at hname'
      have hsame : row = row' := h.integrity.eq_of_same hmem hmem'
        (.inr (collation.trans hname (collation.symm hname')))
      subst hsame
      exact .some ⟨hid', hprofile', hof', (h.profiles _ _ hprofile').2⟩

end

/-! ## The members agree -/

/-- The statement that MySQL gets: hashes for the secrets. -/
def Statement.hashed (hash : Sha256) : Statement → Statement
  | .insertUser username password securityQuestion securityAnswer =>
    .insertUser username (sha256 hash password) securityQuestion (sha256 hash securityAnswer)
  | .updatePassword newPassword username => .updatePassword (sha256 hash newPassword) username
  | statement => statement

/-- What MySQL decides, where the list of friends comes out as `listed`. -/
def circumstancesOf (hash : Sha256) (mysql : MySQL) (listed : List Friend) : Circumstances where
  executes := fun statement => mysql.executes (statement.hashed hash)
  userId := mysql.userId
  msgId := mysql.msgId
  arrange := fun friends => if listed.Perm friends then listed else friends
  arrange_perm := by
    intro friends
    split
    next h => exact h
    next => exact .refl _

section

variable {collation : Collation} {hash : Sha256} {secrets : Set Bytes} {mysql : MySQL}
  {t : Tables} {d : Directory} {listed : List Friend} {row : UserRow} {profile : Profile}

/-- What is shown of a user is what is in the profile. -/
theorem RowOf.shown (h : RowOf hash row profile) (hkeep : profile.Keepable secrets) :
    fetchesUser row = true ∧ fits 64 row.username = true
      ∧ ∀ behind, cString 64 row.username behind = profile.username := by
  obtain ⟨hfits, hback⟩ := nameFits_iff.mpr hkeep.username
  rw [← h.username] at hfits hback
  refine ⟨?_, hfits, fun behind => (hback behind).trans h.username⟩
  unfold fetchesUser
  rw [hfits, h.avatarUrl]
  rfl

theorem Realizes.verifyUser (h : Realizes collation hash secrets t d)
    (hinj : Set.InjOn hash.digest secrets) {username password : Bytes}
    (hpassword : password ∈ secrets) :
    Database.verifyUser collation hash mysql t username password
      = d.verifyUser collation (circumstancesOf hash mysql listed) username password := by
  unfold Database.verifyUser Directory.verifyUser
  refine if_congr Iff.rfl ?_ rfl
  rcases rel_cases (h.named username) with
    ⟨hrow, hnamed⟩ | ⟨row, p, hrow, hnamed, hid, _, hof, hkeep⟩
  · rw [hrow, hnamed]
    rfl
  rw [hrow, hnamed]
  dsimp only [Option.bind_some]
  obtain ⟨_, hfits, hshown⟩ := hof.shown hkeep
  have hhash : fits 256 row.passwordHash = true := by
    rw [hof.passwordHash]
    exact (fitsBuffer_sha256 hash _).fits
  rw [if_pos ⟨hfits, hhash⟩, hof.passwordHash, cString_sha256, hshown, hid]
  refine if_congr ?_ rfl rfl
  rw [sha256_inj]
  exact hinj.eq_iff hkeep.password hpassword

theorem Realizes.getUserById (h : Realizes collation hash secrets t d) (userId : Int32) :
    (Database.getUserById mysql t userId)
      = d.getUserById (circumstancesOf hash mysql listed) userId := by
  unfold Database.getUserById Directory.getUserById
  refine if_congr Iff.rfl ?_ rfl
  rcases rel_cases (h.withId userId) with
    ⟨hrow, hprofile⟩ | ⟨row, profile, hrow, hprofile, hid, hof, hkeep⟩
  · rw [hrow, hprofile]
    rfl
  · obtain ⟨hfetch, _, hshown⟩ := hof.shown hkeep
    rw [hrow, hprofile]
    dsimp only [Option.map_some]
    rw [if_pos hfetch, hshown, hid]

/-- The join is the directory's list. -/
theorem Realizes.friendsOf (h : Realizes collation hash secrets t d) (userId : Int32)
    (behind : Bytes) :
    (joinFriends t userId).map (fun pair => ({
        friendId := pair.1.friendId
        friendName := cString 64 pair.2.username behind } : Friend))
      = d.friendsOf userId := by
  unfold joinFriends Directory.friendsOf
  rw [h.friends, List.filter_map, List.filterMap_map, List.map_filterMap, List.filter_filter]
  refine (List.filterMap_congr fun row _ => ?_).trans (congrArg _ (List.filter_congr ?_))
  · rcases rel_cases (h.withId row.friendId) with
      ⟨hrow, hprofile⟩ | ⟨friend, profile, hrow, hprofile, _, hof, hkeep⟩
    · simp only [Function.comp_apply, hrow, hprofile, Option.map_none]
    · simp only [Function.comp_apply, hrow, hprofile, Option.map_some, (hof.shown hkeep).2.2]
  · intro row _
    simp

/-- Every row of the join is fetched whole. -/
theorem Realizes.fetchesUser (h : Realizes collation hash secrets t d) {userId : Int32}
    {pair : FriendRow × UserRow} (hpair : pair ∈ joinFriends t userId) :
    fetchesUser pair.2 = true := by
  obtain ⟨row, _, hjoined⟩ := List.mem_filterMap.mp hpair
  obtain ⟨friend, hfriend, rfl⟩ := Option.map_eq_some_iff.mp hjoined
  have hrel := h.withId row.friendId
  rw [hfriend] at hrel
  rcases rel_cases hrel with ⟨hnone, _⟩ | ⟨_, _, hsome, _, _, hof, hkeep⟩
  · cases hnone
  · cases hsome
    exact (hof.shown hkeep).1

theorem Realizes.getFriends (h : Realizes collation hash secrets t d) {userId : Int32}
    (hlisted : listed = (Database.getFriends mysql t userId).getD []) :
    Database.getFriends mysql t userId
      = d.getFriends (circumstancesOf hash mysql listed) userId := by
  have hall : (mysql.order (joinFriends t userId)).takeWhile
        (fun pair => Database.fetchesUser pair.2) = mysql.order (joinFriends t userId) :=
    List.takeWhile_eq_self_iff.mpr fun pair hpair =>
      h.fetchesUser ((mysql.order_perm _).mem_iff.mp hpair)
  unfold Database.getFriends at hlisted ⊢
  unfold Directory.getFriends
  rw [hall] at hlisted ⊢
  by_cases hexecutes : mysql.executes (.selectFriends userId) = true
  · have hexecutes' : (circumstancesOf hash mysql listed).executes (.selectFriends userId) = true :=
      hexecutes
    rw [if_pos hexecutes] at hlisted ⊢
    rw [if_pos hexecutes']
    refine congrArg some (hlisted.symm.trans (if_pos ?_).symm)
    rw [hlisted, ← h.friendsOf userId mysql.behind]
    exact (mysql.order_perm _).map _
  · have hexecutes' : ¬ (circumstancesOf hash mysql listed).executes (.selectFriends userId)
        = true := hexecutes
    rw [if_neg hexecutes, if_neg hexecutes']

variable (mysql listed) in
theorem Realizes.getSecurityQuestion (h : Realizes collation hash secrets t d) (username : Bytes) :
    Option.Rel (fun found found' => found.1 = found'.1 ∧ found.2 = sha256 hash found'.2
        ∧ found'.2 ∈ secrets)
      (Database.getSecurityQuestion collation mysql t username)
      (d.getSecurityQuestion collation (circumstancesOf hash mysql listed) username) := by
  unfold Database.getSecurityQuestion Directory.getSecurityQuestion
  refine rel_ite Iff.rfl fun _ _ => ?_
  rcases rel_cases (h.named username) with
    ⟨hrow, hnamed⟩ | ⟨row, p, hrow, hnamed, _, _, hof, hkeep⟩
  · rw [hrow, hnamed]
    exact .none
  · obtain ⟨hfits, hback⟩ := fitsBuffer_iff.mpr hkeep.securityQuestion
    rw [hrow, hnamed]
    dsimp only [Option.map_some]
    rw [hof.securityAnswer, hof.securityQuestion,
      if_pos ⟨hfits, (fitsBuffer_sha256 hash _).fits⟩, hback, cString_sha256]
    exact .some ⟨rfl, rfl, hkeep.securityAnswer⟩

theorem Realizes.usernameExists (h : Realizes collation hash secrets t d) (username : Bytes) :
    Database.usernameExists collation mysql t username
      = d.usernameExists collation (circumstancesOf hash mysql listed) username := by
  have hsome : decide ((t.users.filter fun row => collation.eq row.username username).length > 0)
      = (d.named collation username).isSome := by
    have hfound : (t.userNamed collation username).isSome
        = (d.named collation username).isSome := by
      rcases rel_cases (h.named username) with ⟨hrow, hnamed⟩ | ⟨row, p, hrow, hnamed, _⟩
      · rw [hrow, hnamed]
        rfl
      · rw [hrow, hnamed]
        rfl
    rw [← hfound, Tables.userNamed, List.isSome_find?, Bool.eq_iff_iff, decide_eq_true_iff,
      gt_iff_lt, List.length_filter_pos_iff, List.any_eq_true]
  have hexecutes : (circumstancesOf hash mysql listed).executes (.countUsername username)
      = mysql.executes (.countUsername username) := rfl
  unfold Database.usernameExists Directory.usernameExists
  rw [hsome, hexecutes]
  cases mysql.executes (.countUsername username) <;> rfl

variable (mysql listed) in
theorem Realizes.addFriend (h : Realizes collation hash secrets t d) (userId friendId : Int32) :
    Option.Rel (Realizes collation hash secrets) (Database.addFriend mysql t userId friendId)
      (d.addFriend (circumstancesOf hash mysql listed) userId friendId) := by
  unfold Database.addFriend Directory.addFriend
  refine rel_ite Iff.rfl fun _ _ => ?_
  refine rel_ite (by rw [h.isSome, h.isSome]) fun hboth _ => .some ?_
  refine ⟨h.integrity.insertFriend (Tables.insertFriend_eq_some.mpr ⟨hboth, rfl⟩), h.rows,
    h.profiles, ?_, h.messages⟩
  simp only [h.friends, List.filter_append, List.map_append, List.filter_cons, decide_true,
    if_true, List.filter_nil, List.map_cons, List.map_nil]

theorem Realizes.sendMessage (h : Realizes collation hash secrets t d) (fromId toId : Int32)
    (content : Bytes) :
    Option.Rel (fun p p' => Realizes collation hash secrets p.1 p'.1 ∧ p.2 = p'.2)
      (Database.sendMessage collation mysql t fromId toId content)
      (d.sendMessage collation (circumstancesOf hash mysql listed) fromId toId content) := by
  unfold Database.sendMessage Directory.sendMessage
  refine rel_ite Iff.rfl fun _ _ => ?_
  unfold Tables.insertMessage
  rw [apply_ite (Option.map _)]
  refine rel_ite (by rw [h.isSome, h.isSome, h.messages]; rfl) fun hadmits _ => .some ⟨?_, rfl⟩
  refine ⟨h.integrity.insertMessage (if_pos hadmits), h.rows, h.profiles, h.friends, ?_⟩
  simp only [h.messages]
  rfl

theorem Realizes.profile_eq_none (h : Realizes collation hash secrets t d)
    {userId : AutoIncrement} :
    d.profile userId.val = none ↔ ∀ other ∈ t.users, other.userId ≠ userId := by
  rw [← Option.isNone_iff_eq_none, ← Option.isSome_eq_false_iff, h.isSome, Bool.eq_false_iff, ne_eq,
    Tables.hasUser_iff]
  exact ⟨fun hnone other hother heq => hnone ⟨other, hother, congrArg Subtype.val heq⟩,
    fun hall ⟨row, hrow, heq⟩ => hall row hrow (Subtype.ext heq)⟩

theorem Realizes.named_eq_none (h : Realizes collation hash secrets t d) {username : Bytes} :
    d.named collation username = none
      ↔ ∀ other ∈ t.users, collation.eq other.username username = false := by
  have hfind : t.userNamed collation username = none
      ↔ ∀ other ∈ t.users, collation.eq other.username username = false := by
    unfold Tables.userNamed
    rw [List.find?_eq_none]
    exact forall₂_congr fun _ _ => Bool.not_eq_true _ ▸ Iff.rfl
  rw [← hfind]
  rcases rel_cases (h.named username) with ⟨hrow, hnamed⟩ | ⟨row, p, hrow, hnamed, _⟩
  · rw [hrow, hnamed]
    exact ⟨fun _ => rfl, fun _ => rfl⟩
  · rw [hrow, hnamed]
    exact ⟨(fun heq => nomatch heq), (fun heq => nomatch heq)⟩

/-- A new row, and a new profile. -/
theorem Realizes.insertUser (h : Realizes collation hash secrets t d) {t' : Tables}
    (hinsert : t.insertUser collation row = some t') (havatar : row.avatarUrl = none)
    (hof : RowOf hash row profile) (hkeep : profile.Keepable secrets) :
    Realizes collation hash secrets t' (d.setProfile row.userId profile) := by
  have hintegrity := h.integrity.insertUser havatar hinsert
  obtain ⟨⟨_, _, _, _, hnew⟩, rfl⟩ := Tables.insertUser_eq_some.mp hinsert
  refine ⟨hintegrity, fun other hother => ?_, fun userId profile' hprofile => ?_, h.friends,
    h.messages⟩
  · rcases List.mem_append.mp hother with hother | hother
    · obtain ⟨profile', hprofile', hof'⟩ := h.rows other hother
      refine ⟨profile', ?_, hof'⟩
      have hne : other.userId.val ≠ row.userId.val := fun heq =>
        (hnew other hother).1 (Subtype.ext heq)
      rw [Directory.profile_setProfile_of_ne d hne]
      exact hprofile'
    · rw [List.mem_singleton.mp hother]
      exact ⟨profile, d.profile_setProfile_self .., hof⟩
  · by_cases heq : userId = row.userId.val
    · subst heq
      rw [Directory.profile_setProfile_self] at hprofile
      cases hprofile
      exact ⟨Tables.hasUser_iff.mpr
        ⟨row, List.mem_append_right _ (List.mem_singleton_self _), rfl⟩, hkeep⟩
    · rw [Directory.profile_setProfile_of_ne d heq] at hprofile
      obtain ⟨huser, hkeep'⟩ := h.profiles userId profile' hprofile
      obtain ⟨other, hother, heq'⟩ := Tables.hasUser_iff.mp huser
      exact ⟨Tables.hasUser_iff.mpr ⟨other, List.mem_append_left _ hother, heq'⟩, hkeep'⟩

theorem Realizes.registerUser (h : Realizes collation hash secrets t d)
    (hascii : CountsAscii collation) (hkeep : profile.Keepable secrets) :
    Option.Rel (fun p p' => Realizes collation hash secrets p.1 p'.1 ∧ p.2 = p'.2)
      (Database.registerUser collation mysql t profile.username (sha256 hash profile.password)
        profile.securityQuestion (sha256 hash profile.securityAnswer))
      (d.registerUser collation (circumstancesOf hash mysql listed) profile.username
        profile.password profile.securityQuestion profile.securityAnswer) := by
  unfold Database.registerUser Directory.registerUser
  refine rel_ite Iff.rfl fun _ _ => ?_
  unfold Tables.insertUser
  rw [apply_ite (Option.map _)]
  refine rel_ite ?_ fun hadmits _ => .some ⟨h.insertUser (if_pos hadmits) rfl ?_ hkeep, rfl⟩
  · unfold Tables.AdmitsUser
    rw [varchar_sha256 hascii, varchar_sha256 hascii, h.named_eq_none]
    show _ ↔ _ ∧ _ ∧ d.profile mysql.userId.val = none ∧ _
    rw [h.profile_eq_none, ← forall₂_and]
    simp only [true_and]
  · exact ⟨rfl, rfl, rfl, rfl, rfl⟩

theorem hasUser_mapPassword (p : UserRow → Bool) (passwordHash : Bytes) (userId : Int32) :
    Tables.hasUser { t with
        users := t.users.map fun row => if p row then { row with passwordHash } else row } userId
      = t.hasUser userId := by
  unfold Tables.hasUser
  rw [List.any_map]
  refine congrArg t.users.any (funext fun row => ?_)
  dsimp only [Function.comp_apply]
  split <;> rfl

/-- The rows with a name are the one row that has it. -/
theorem Realizes.resetPassword (h : Realizes collation hash secrets t d)
    (hascii : CountsAscii collation) {username newPassword : Bytes} (hnew : newPassword ∈ secrets) :
    Option.Rel (Realizes collation hash secrets)
      (Database.resetPassword collation mysql t username (sha256 hash newPassword))
      (d.resetPassword collation (circumstancesOf hash mysql listed) username newPassword) := by
  unfold Database.resetPassword Directory.resetPassword
  refine rel_ite Iff.rfl fun _ _ => ?_
  have hlimit := varchar_sha256 hascii hash newPassword
  rw [Tables.updatePassword, if_pos hlimit]
  have hintegrity := h.integrity.mapPassword hlimit fun row => collation.eq row.username username
  refine .some ?_
  rcases rel_cases (h.named username) with
    ⟨hrow, hnamed⟩ | ⟨row, p, hrow, hnamed, hid, hprofile, hof, hkeep⟩
  · -- Nobody has the name, and no row is written.
    have hsame : (t.users.map fun row => if collation.eq row.username username = true then
        { row with passwordHash := sha256 hash newPassword } else row) = t.users := by
      refine (List.map_congr_left fun row hmem => ?_).trans (List.map_id _)
      rw [h.named_eq_none.mp hnamed row hmem]
      rfl
    rw [hnamed, hsame]
    exact h
  rw [hnamed]
  obtain ⟨hmem, hname⟩ := h.integrity.userNamed_eq_some.mp hrow
  refine ⟨hintegrity, fun other hother => ?_, fun userId profile hsome => ?_, h.friends, h.messages⟩
  · obtain ⟨old, hold, rfl⟩ := List.mem_map.mp hother
    by_cases heq : collation.eq old.username username = true
    · have hsame : old = row := h.integrity.eq_of_same hold hmem
        (.inr (collation.trans heq (collation.symm hname)))
      subst hsame
      rw [if_pos heq]
      refine ⟨{ p.2 with password := newPassword }, ?_, hof.username, rfl, hof.securityQuestion,
        hof.securityAnswer, hof.avatarUrl⟩
      show (d.setProfile p.1 _).profile old.userId.val = _
      rw [hid, Directory.profile_setProfile_self]
    · rw [if_neg heq]
      obtain ⟨profile, hprofile', hof'⟩ := h.rows old hold
      have hne : old.userId.val ≠ p.1 := by
        intro hsame
        have hrow' : old = row := h.integrity.eq_of_same hold hmem
          (.inl (Subtype.ext (hsame.trans hid.symm)))
        exact heq (hrow' ▸ hname)
      exact ⟨profile, (d.profile_setProfile_of_ne hne _).trans hprofile', hof'⟩
  · rw [hasUser_mapPassword]
    by_cases heq : userId = p.1
    · subst heq
      have hnew' : some { p.2 with password := newPassword } = some profile :=
        (d.profile_setProfile_self ..).symm.trans hsome
      cases hnew'
      exact ⟨(h.profiles _ _ hprofile).1, hkeep.username, hkeep.securityQuestion, hnew,
        hkeep.securityAnswer⟩
    · exact h.profiles userId profile ((d.profile_setProfile_of_ne heq _).symm.trans hsome)

end

/-! ## The servers agree -/

/-- What a request says of secrets is among them, and what it asks to keep is read back. -/
def Request.Keepable (secrets : Set Bytes) : Request → Prop
  | .login req => req.password ∈ secrets
  | .register req =>
    Profile.Keepable secrets {
      username := req.username
      password := req.password
      securityQuestion := req.securityQuestion
      securityAnswer := req.securityAnswer }
  | .resetPassword req => req.newPassword ∈ secrets ∧ req.securityAnswer ∈ secrets
  | _ => True

/-- The world of a server over the directory. -/
noncomputable def Directory.world (collation : Collation) (circumstances : Circumstances)
    (redis : CacheCommand → Bool) (now : Int64) : World Directory where
  db := Directory.pool collation circumstances
  redis
  now
  sha256 := id

section

variable {collation : Collation} {hash : Sha256} {secrets : Set Bytes} {mysql : MySQL}
  {t : Tables} {d : Directory} {redis : CacheCommand → Bool} {now : Int64}

variable {wiring : Wiring} {s s' : ChatServer Tables} {e : Event Tables} {u : ChatServer Directory}

end

/-! ## The rows of `init.sql` -/

end QQChat.Database
