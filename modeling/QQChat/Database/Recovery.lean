import Mathlib.Data.Set.Function
import QQChat.Database.Credentials

/-!
# Account recovery

A forgotten password is reset by the answer to a question, both given when the user
registered. After any history of requests, the question of a registered user is asked
for, and the password reset, with any memory behind the buffers of `get_security_question`.

A reset writes the password alone, so the row keeps the question and the hash of the
answer (`step_known`). The column of the question takes 256 characters and its buffer
256 bytes, which is one too few even for a question of 256 bytes: nothing ends it
(`recovers_iff`).

Mirroring notes:
- A user is registered once REGISTER_RESP says SUCCESS, with what was in the request.
- The new hash has to pass the column's limit once more, when a reset writes it, so
  that text of `utf8mb4` counts its ASCII characters one byte each is used here.
- As in `Credentials`, the hash has no collisions on a set: of answers, here.
-/

namespace QQChat.Database

open Server ChatServer Trace BigEndian

/-! ## Who is registered -/

/-- The registrations after an answer to this packet, if it was one of SUCCESS. -/
def enrolled (registered : List RegisterRequest) (d : Dispatched) (s s' : ChatServer Tables) :
    List RegisterRequest :=
  match d.request with
  | some (.register req) =>
    if AnswersWith s s' .registerResp .success then registered ++ [req] else registered
  | _ => registered

/-- A packet is handed over, and whoever it registers is noted. -/
def enrollStep (collation : Collation) (hash : Sha256) :
    ChatServer Tables × List RegisterRequest → Dispatched →
      Option (ChatServer Tables × List RegisterRequest)
  | (s, registered), d =>
    (dispatch collation hash s d).map fun s' => (s', enrolled registered d s s')

/-- The answer that a packet would set. -/
def Dispatched.newAnswer (d : Dispatched) : Option Bytes :=
  match d.request with
  | some (.register req) => some req.securityAnswer
  | _ => none

/-! ## What is expected -/

/-- One answer is sent, of this kind and with this payload. -/
def Replies (s s' : ChatServer Tables) (c : ConnId) (command : CommandCode) (data : Bytes) : Prop :=
  passedToSend s s' = [(c, encode { version := VERSION, command, data })]

/-- A registered user's account can be recovered, by its answer and by no other. -/
structure Recovers (answers : Set Bytes) (w : World Tables) (s : ChatServer Tables)
    (req : RegisterRequest) : Prop where
  question : ∀ c,
    Replies s (handleRequest w s c (.securityQuestion { username := req.username })) c
      .securityQuestionResp
      (encodeSecurityQuestionResponse { errorCode := .success, question := req.securityQuestion })
  reset : ∀ c newPassword, newPassword ≠ [] →
    Replies s
      (handleRequest w s c (.resetPassword {
        username := req.username, newPassword, securityAnswer := req.securityAnswer }))
      c .resetPasswordResp (encodeResetPasswordResponse { errorCode := .success })
  refused : ∀ c newPassword securityAnswer, newPassword ≠ [] → securityAnswer ≠ [] →
    securityAnswer ∈ answers → securityAnswer ≠ req.securityAnswer →
    let s' := handleRequest w s c (.resetPassword {
      username := req.username, newPassword, securityAnswer })
    Replies s s' c .resetPasswordResp (encodeResetPasswordResponse { errorCode := .invalidAnswer })
      ∧ s'.db = s.db

/-- Whenever every statement is executed, and whatever the memory holds. -/
def Recoverable (collation : Collation) (hash : Sha256) (answers : Set Bytes)
    (s : ChatServer Tables) (req : RegisterRequest) : Prop :=
  ∀ mysql : MySQL, (∀ statement, mysql.executes statement = true) → ∀ redis now,
    Recovers answers (world collation hash mysql redis now) s req

/-- An ASCII character takes one byte. -/
def CountsAscii (collation : Collation) : Prop :=
  ∀ value : Bytes, (∀ b ∈ value, b.toNat < 128) → collation.length value = some value.length

/-! ## The rows of the registered -/

/-- The row of a registration. -/
structure Stored (hash : Sha256) (row : UserRow) (req : RegisterRequest) : Prop where
  username : row.username = req.username
  securityQuestion : row.securityQuestion = req.securityQuestion
  securityAnswer : row.securityAnswer = sha256 hash req.securityAnswer

structure Known (collation : Collation) (hash : Sha256) (answers : Set Bytes) (t : Tables)
    (registered : List RegisterRequest) : Prop where
  rows : ∀ req ∈ registered, ∃ row ∈ t.users, Stored hash row req
  names : t.users.Pairwise fun row other => collation.eq row.username other.username = false
  given : ∀ req ∈ registered,
    req.username ≠ [] ∧ req.securityAnswer ≠ [] ∧ req.securityAnswer ∈ answers

theorem toNat_hexDigit_lt {n : UInt8} (h : n.toNat < 16) : (hexDigit n).toNat < 128 := by
  rw [toNat_hexDigit h]
  split <;> omega

/-- A hash can be written to its column. -/
theorem varchar_sha256 {collation : Collation} (hascii : CountsAscii collation) (hash : Sha256)
    (str : Bytes) : collation.varchar 256 (sha256 hash str) = true := by
  have hdigits : ∀ b ∈ sha256 hash str, b.toNat < 128 := by
    intro b hb
    obtain ⟨byte, _, hb⟩ := List.mem_flatMap.mp hb
    rcases List.mem_cons.mp hb with rfl | hb
    · exact toNat_hexDigit_lt (halves_lt byte).1
    · rw [List.mem_singleton.mp hb]
      exact toNat_hexDigit_lt (halves_lt byte).2
  unfold Collation.varchar
  rw [hascii _ hdigits, length_sha256]
  rfl

section

variable {collation : Collation} {hash : Sha256} {answers : Set Bytes} {mysql : MySQL}
  {redis : CacheCommand → Bool} {now : Int64} {t : Tables} {s : ChatServer Tables}
  {registered : List RegisterRequest} {req : RegisterRequest} {row : UserRow}

/-- A reset goes through. -/
theorem exists_resetPassword (hascii : CountsAscii collation)
    (hexecutes : ∀ statement, mysql.executes statement = true) (t : Tables)
    (username newPassword : Bytes) :
    ∃ t', resetPassword collation mysql t username (sha256 hash newPassword) = some t' := by
  unfold resetPassword Tables.updatePassword
  rw [if_pos (hexecutes _), if_pos (varchar_sha256 hascii hash newPassword)]
  exact ⟨_, rfl⟩

/-- What `get_security_question` makes of a registration. -/
theorem Known.getSecurityQuestion (ht : Known collation hash answers t registered)
    (hexecutes : ∀ statement, mysql.executes statement = true) (hreq : req ∈ registered) :
    getSecurityQuestion collation mysql t req.username
      = if fits 256 req.securityQuestion = true then
          some (cString 256 req.securityQuestion mysql.behind, sha256 hash req.securityAnswer)
        else none := by
  obtain ⟨row, hrow, hstored⟩ := ht.rows req hreq
  have hfound : t.userNamed collation req.username = some row := by
    refine userNamed_eq_some ht.names hrow ?_
    rw [hstored.username]
    exact collation.refl _
  have hlength : row.securityAnswer.length < 256 := by
    rw [hstored.securityAnswer, length_sha256]
    omega
  have hzero : 0 ∉ row.securityAnswer := by
    rw [hstored.securityAnswer]
    exact zero_notMem_sha256 hash _
  have hfits : fits 256 row.securityAnswer = true := decide_eq_true (Nat.le_of_lt hlength)
  unfold Database.getSecurityQuestion
  rw [if_pos (hexecutes _), hfound]
  dsimp only
  rw [cString_eq hlength hzero, hstored.securityQuestion, hstored.securityAnswer]
  rw [hstored.securityAnswer] at hfits
  simp only [hfits, and_true]

/-- The answer to a SECURITY_QUESTION_REQ, by what `get_security_question` returns. -/
theorem replies_securityQuestion {w : World Tables} {c : ConnId} {username : Bytes}
    (hne : username ≠ []) :
    Replies s (handleRequest w s c (.securityQuestion { username })) c .securityQuestionResp
      (encodeSecurityQuestionResponse (match w.db.getSecurityQuestion s.db username with
        | none => { errorCode := .userNotFound, question := [] }
        | some (question, _) => { errorCode := .success, question })) := by
  dsimp only [handleRequest, handleSecurityQuestion]
  rw [if_neg hne]
  cases w.db.getSecurityQuestion s.db username with
  | none => exact passedToSend_eq rfl
  | some found => exact passedToSend_eq rfl

/-- The response determines what was encoded. -/
theorem encodeSecurityQuestionResponse_inj {resp resp' : SecurityQuestionResponse}
    (h : encodeSecurityQuestionResponse resp = encodeSecurityQuestionResponse resp') :
    resp = resp' := by
  have hcode := (carries_securityQuestionResponse resp).read
  rw [h, (carries_securityQuestionResponse resp').read, Option.some_inj] at hcode
  rw [encodeSecurityQuestionResponse_eq, encodeSecurityQuestionResponse_eq] at h
  obtain ⟨_, hfield⟩ := List.append_inj h (by rw [length_toBytes, length_toBytes])
  obtain ⟨_, hquestion⟩ := List.append_inj hfield (by rw [length_toBytes, length_toBytes])
  have herror : resp.errorCode = resp'.errorCode := congrArg ErrorCode.mk hcode.symm
  cases resp
  cases resp'
  cases herror
  cases hquestion
  rfl

theorem Replies.data_eq {s s' : ChatServer Tables} {c : ConnId} {command : CommandCode}
    {data data' : Bytes} (h : Replies s s' c command data) (h' : Replies s s' c command data') :
    data = data' := by
  have hframe := (Prod.mk.inj (List.singleton_inj.mp (h.symm.trans h'))).2
  rw [encode_eq_client, encode_eq_client] at hframe
  have hdrop := congrArg (List.drop HEADER_SIZE) hframe
  rwa [Client.drop_encode, Client.drop_encode] at hdrop

/-- Where the questions fit, the accounts can be recovered. -/
theorem Known.recovers (ht : Known collation hash answers s.db registered)
    (hash_injOn : Set.InjOn hash.digest answers) (hascii : CountsAscii collation)
    (hexecutes : ∀ statement, mysql.executes statement = true) (hreq : req ∈ registered)
    (hquestion : FitsBuffer 256 req.securityQuestion) :
    Recovers answers (world collation hash mysql redis now) s req := by
  obtain ⟨hname, hanswer, hgiven⟩ := ht.given req hreq
  obtain ⟨hfits, hback⟩ := fitsBuffer_iff.mpr hquestion
  have hget : (world collation hash mysql redis now).db.getSecurityQuestion s.db req.username
      = some (req.securityQuestion, sha256 hash req.securityAnswer) := by
    refine (ht.getSecurityQuestion hexecutes hreq).trans ?_
    rw [if_pos hfits, hback]
  constructor
  · intro c
    have hreplies := replies_securityQuestion (s := s) (c := c)
      (w := world collation hash mysql redis now) hname
    rwa [hget] at hreplies
  · intro c newPassword hnew
    obtain ⟨db, hdb⟩ : ∃ db, (world collation hash mysql redis now).db.resetPassword s.db
        req.username ((world collation hash mysql redis now).sha256 newPassword) = some db :=
      exists_resetPassword hascii hexecutes s.db req.username newPassword
    have hsame : ¬ (world collation hash mysql redis now).sha256 req.securityAnswer
        ≠ sha256 hash req.securityAnswer := not_not_intro rfl
    dsimp only [handleRequest, handleResetPassword]
    rw [if_neg (by simp [hname, hnew, hanswer]), hget]
    dsimp only
    rw [if_neg hsame, hdb]
    exact passedToSend_eq rfl
  · intro c newPassword securityAnswer hnew hne hmem hother
    have hdiffer : (world collation hash mysql redis now).sha256 securityAnswer
        ≠ sha256 hash req.securityAnswer := by
      intro heq
      exact hother (hash_injOn hmem hgiven ((sha256_inj hash).mp heq))
    dsimp only [handleRequest, handleResetPassword]
    rw [if_neg (by simp [hname, hnew, hne]), hget]
    dsimp only
    rw [if_pos hdiffer]
    exact ⟨passedToSend_eq rfl, rfl⟩

/-- **An account can be recovered exactly if its question fits.** -/
theorem Known.recovers_iff (ht : Known collation hash answers s.db registered)
    (hash_injOn : Set.InjOn hash.digest answers) (hascii : CountsAscii collation)
    (hreq : req ∈ registered) :
    Recoverable collation hash answers s req ↔ FitsBuffer 256 req.securityQuestion := by
  constructor
  · intro hrecoverable
    -- Memory that is not zero is enough to tell.
    have hexecutes : ∀ statement,
        ({ reachable with behind := [1] } : MySQL).executes statement = true := fun _ => rfl
    have hasked := (hrecoverable _ hexecutes (fun _ => true) 0).question 0
    have hreplies := replies_securityQuestion (s := s) (c := 0)
      (w := world collation hash { reachable with behind := [1] } (fun _ => true) 0)
      (ht.given req hreq).1
    have hresp := encodeSecurityQuestionResponse_inj (hasked.data_eq hreplies)
    dsimp only [world, databasePool] at hresp
    rw [ht.getSecurityQuestion hexecutes hreq] at hresp
    split at hresp
    next hnone =>
      exact absurd (congrArg SecurityQuestionResponse.errorCode hresp)
        (show ErrorCode.success ≠ .userNotFound by decide)
    next hsome =>
      obtain ⟨hfits, heq⟩ := Option.ite_none_right_eq_some.mp hsome
      cases heq
      exact fitsBuffer_of_cString hfits (congrArg SecurityQuestionResponse.question hresp).symm
  · intro hquestion mysql hexecutes redis now
    exact ht.recovers hash_injOn hascii hexecutes hreq hquestion

end

/-! ## Every request keeps them -/

section

variable {collation : Collation} {hash : Sha256} {answers : Set Bytes}
  {s s' : ChatServer Tables} {registered : List RegisterRequest} {d : Dispatched}

/-- Nobody is registered without a name and an answer. -/
theorem fields_of_register (h : dispatch collation hash s d = some s') {req : RegisterRequest}
    (hr : d.request = some (.register req)) (hsuccess : AnswersWith s s' .registerResp .success) :
    req.username ≠ [] ∧ req.securityAnswer ≠ [] := by
  by_contra hempty
  have hinvalid : req.username = [] ∨ req.password = [] ∨ req.securityQuestion = []
      ∨ req.securityAnswer = [] := by
    rcases not_and_or.mp hempty with hname | hanswer
    · exact .inl (not_not.mp hname)
    · exact .inr (.inr (.inr (not_not.mp hanswer)))
  have heq := dispatch_request h hr
  dsimp only [handleRequest, handleRegister] at heq
  rw [if_pos hinvalid] at heq
  have hpassed : passedToSend s s' = [(d.conn, encode {
      version := VERSION
      command := .registerResp
      data := encodeRegisterResponse { errorCode := .invalidRequest, userId := 0 } })] := by
    rw [heq]
    exact passedToSend_eq rfl
  have hcode := (answersWith_iff hpassed (carries_registerResponse _)).mp hsuccess
  exact absurd hcode (by decide)

theorem known_register (hs : Known collation hash answers s.db registered)
    (h : dispatch collation hash s d = some s') {req : RegisterRequest}
    (hr : d.request = some (.register req)) (hnew : req.securityAnswer ∈ answers) :
    Known collation hash answers s'.db (enrolled registered d s s') := by
  obtain ⟨resp, hregisters, hpassed⟩ := dispatch_register h hr
  have hanswer : AnswersWith s s' .registerResp .success ↔ .success = resp.errorCode :=
    answersWith_iff hpassed (carries_registerResponse resp)
  have hfields := fields_of_register h hr
  unfold enrolled
  simp only [hr]
  generalize s'.db = t' at hregisters
  cases hregisters with
  | refused herror =>
    rw [if_neg fun hsuccess => herror (hanswer.mp hsuccess).symm]
    exact hs
  | registered hsome =>
    have hsuccess := hanswer.mpr rfl
    obtain ⟨hname, hgiven⟩ := hfields hsuccess
    rw [if_pos hsuccess]
    obtain ⟨_, hinsert, rfl⟩ := registerUser_eq_some.mp hsome
    obtain ⟨hadmits, rfl⟩ := Tables.insertUser_eq_some.mp hinsert
    refine ⟨fun old hold => ?_, names_insertUser hadmits hs.names, fun old hold => ?_⟩
    · rcases List.mem_append.mp hold with hold | hold
      · obtain ⟨row, hrow, hstored⟩ := hs.rows old hold
        exact ⟨row, List.mem_append_left _ hrow, hstored⟩
      · rw [List.mem_singleton.mp hold]
        exact ⟨_, List.mem_append_right _ (List.mem_singleton_self _), rfl, rfl, rfl⟩
    · rcases List.mem_append.mp hold with hold | hold
      · exact hs.given old hold
      · rw [List.mem_singleton.mp hold]
        exact ⟨hname, hgiven, hnew⟩

/-- A reset writes one column, of rows that stay. -/
theorem known_updatePassword {t t' : Tables} {passwordHash username : Bytes}
    (ht : Known collation hash answers t registered)
    (h : t.updatePassword collation passwordHash username = some t') :
    Known collation hash answers t' registered := by
  rw [Tables.updatePassword_eq_some h]
  refine ⟨fun req hreq => ?_, names_updatePassword ht.names, ht.given⟩
  obtain ⟨row, hrow, hstored⟩ := ht.rows req hreq
  refine ⟨_, List.mem_map_of_mem hrow, ?_⟩
  split
  · exact ⟨hstored.username, hstored.securityQuestion, hstored.securityAnswer⟩
  · exact hstored

theorem step_known (hs : Known collation hash answers s.db registered)
    (h : dispatch collation hash s d = some s')
    (hnew : ∀ answer, d.newAnswer = some answer → answer ∈ answers) :
    Known collation hash answers s'.db (enrolled registered d s s') := by
  by_cases hregister : ∃ req, d.request = some (.register req)
  · obtain ⟨req, hr⟩ := hregister
    exact known_register hs h hr (hnew _ (by simp only [Dispatched.newAnswer, hr]))
  have hsame : enrolled registered d s s' = registered := by
    unfold enrolled
    split
    next req hr => exact absurd ⟨req, hr⟩ hregister
    next => rfl
  rw [hsame]
  by_cases hreset : ∃ req, d.request = some (.resetPassword req)
  · obtain ⟨req, hr⟩ := hreset
    obtain ⟨_, hresets, _⟩ := dispatch_resetPassword h hr
    generalize s'.db = t' at hresets
    cases hresets with
    | refused herror => exact hs
    | reset hsome => exact known_updatePassword hs (resetPassword_eq_some.mp hsome).2
  · have husers := users_of_dispatch h (fun req hr => hregister ⟨req, hr⟩)
      fun req hr => hreset ⟨req, hr⟩
    exact ⟨husers ▸ hs.rows, husers ▸ hs.names, hs.given⟩

/-- **A registered user's account can be recovered exactly if the question fits the
buffer**: after any history of requests, with any outcome of each statement, on tables
with anybody else in them. -/
theorem recoverable_iff {s₀ : ChatServer Tables}
    (hunique : s₀.db.users.Pairwise fun row other =>
      collation.eq row.username other.username = false)
    (hash_injOn : Set.InjOn hash.digest answers) (hascii : CountsAscii collation)
    {ds : List Dispatched}
    (hnew : ∀ d ∈ ds, ∀ answer, d.newAnswer = some answer → answer ∈ answers)
    (h : exec (enrollStep collation hash) (s₀, []) ds = some (s, registered))
    {req : RegisterRequest} (hreq : req ∈ registered) :
    Recoverable collation hash answers s req ↔ FitsBuffer 256 req.securityQuestion := by
  have hinit : Known collation hash answers s₀.db [] := {
    rows := fun req hreq => absurd hreq List.not_mem_nil
    names := hunique
    given := fun req hreq => absurd hreq List.not_mem_nil }
  have hknown : Known collation hash answers s.db registered := by
    refine exec_invariant (I := fun state => Known collation hash answers state.1.db state.2)
      ?_ hnew hinit h
    intro (s, registered) d t hd hs hstep
    obtain ⟨s', hs', rfl⟩ := Option.map_eq_some_iff.mp hstep
    exact step_known hs hs' hd
  exact hknown.recovers_iff hash_injOn hascii hreq

end

theorem countsAscii_utf8 : CountsAscii utf8 := by
  intro value hascii
  refine congrArg some (List.countP_eq_length.mpr fun b hb => decide_eq_true fun heq => ?_)
  have hb' := hascii b hb
  have hdiv := congrArg UInt8.toNat heq
  rw [UInt8.toNat_div] at hdiv
  have h64 : b.toNat / 64 = 2 := hdiv
  omega

/-- User `bob` registers with this question, and the answer `password123`. -/
def bobAsks (securityQuestion : Bytes) : RegisterRequest where
  username := [98, 111, 98]
  password := password123
  securityQuestion
  securityAnswer := password123

theorem recoverable_iff_bob :
    ∃ s, exec (enrollStep utf8 sampleHash) (.init initSql, [])
        [sent 1 (.register (bobAsks [63])) reachable] = some (s, [bobAsks [63]])
      ∧ Recoverable utf8 sampleHash {password123, [120]} s (bobAsks [63]) := by
  have hrun : (exec (enrollStep utf8 sampleHash) (.init initSql, [])
      [sent 1 (.register (bobAsks [63])) reachable]).map Prod.snd = some [bobAsks [63]] := by decide
  obtain ⟨⟨s, registered⟩, hs, hregistered⟩ := Option.map_eq_some_iff.mp hrun
  cases hregistered
  have hnew : [sent 1 (.register (bobAsks [63])) reachable].map Dispatched.newAnswer
      = [some password123] := by decide
  have hreq : bobAsks [63] ∈ [bobAsks [63]] := List.mem_singleton_self _
  refine ⟨s, hs,
    (recoverable_iff (by decide) injOn_sampleHash countsAscii_utf8 ?_ hs hreq).mpr (by decide)⟩
  intro d hd answer hanswer
  have hmem : some answer ∈ [some password123] := by
    rw [← hnew, ← hanswer]
    exact List.mem_map_of_mem hd
  exact .inl (Option.some.inj (List.mem_singleton.mp hmem))

/-- The character U+4E2D, 86 times. -/
def longQuestion : Bytes :=
  (List.replicate 86 [0xe4, 0xb8, 0xad]).flatten

/-- A question of 86 characters that takes 258 bytes: its user registers, and is not
known when asking for it. -/
theorem not_recoverable_longQuestion : ∃ s registered,
    exec (enrollStep utf8 sampleHash) (.init {}, [])
        [sent 1 (.register (bobAsks longQuestion)) reachable] = some (s, registered)
      ∧ Set.InjOn sampleHash.digest {password123} ∧ CountsAscii utf8
      ∧ bobAsks longQuestion ∈ registered
      ∧ ¬ Recoverable utf8 sampleHash {password123} s (bobAsks longQuestion) := by
  have hrun : (exec (enrollStep utf8 sampleHash) (.init {}, [])
      [sent 1 (.register (bobAsks longQuestion)) reachable]).map (fun state =>
        (state.2,
          getSecurityQuestion utf8 reachable state.1.db (bobAsks longQuestion).username))
      = some ([bobAsks longQuestion], none) := by decide +kernel
  obtain ⟨⟨s, registered⟩, hs, hfinal⟩ := Option.map_eq_some_iff.mp hrun
  injection hfinal with hregistered hquestion
  dsimp only at hregistered hquestion
  have hmem : bobAsks longQuestion ∈ registered := by
    rw [hregistered]
    exact List.mem_singleton_self _
  refine ⟨s, registered, hs, Set.injOn_singleton .., countsAscii_utf8, hmem, ?_⟩
  intro hrecoverable
  have hasked := (hrecoverable reachable (fun _ => rfl) (fun _ => true) 0).question 1
  have hname : (bobAsks longQuestion).username ≠ [] := by decide
  have hreplies := replies_securityQuestion (s := s) (c := 1)
    (w := world utf8 sampleHash reachable (fun _ => true) 0) hname
  dsimp only [world, databasePool] at hreplies
  rw [hquestion] at hreplies
  have hresp := encodeSecurityQuestionResponse_inj (hasked.data_eq hreplies)
  exact absurd (congrArg SecurityQuestionResponse.errorCode hresp)
    (show ErrorCode.success ≠ .userNotFound by decide)

end QQChat.Database
