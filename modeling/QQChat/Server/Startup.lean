import QQChat.Lib.Numeral
import QQChat.Server.Config

/-!
# What `main` reads from the configuration file

`main` (`main.cpp`) looks its values up one by one (`get_config_value`), turns three of
them into numbers (`safe_stoi`), and hands them to the database pool, the cache and the
server. The specification is over documents and numerals: a setting is what the first
entry for it says (`Finds`), a number is what the whole text stands for as a numeral, and
the default where it stands for no `int` (`NumberOr`). `configures_iff` is the
agreement, for every document.

Mirroring notes:
- `safe_stoi` catches everything, so what `stoi` throws is not told apart.
- `static_cast<short>` keeps the low 16 bits, and so does the conversion to the
  `unsigned short` of `tcp::endpoint` (`listenPort`): a port above 32767 is a negative
  `short`, and the same port again in the endpoint.
- The log lines and the signal handlers are left out.
-/

namespace QQChat.Server.Startup

open Config Numeral

/-! ## `safe_stoi` -/

def safeStoi (str : Bytes) (defaultVal : Int32) : Int32 :=
  if str = [] then defaultVal
  else
    match stoi str with
    | .error _ => defaultVal
    | .ok (val, pos) => if pos ≠ str.length then defaultVal else val

/-- The `int` that a text is a numeral for, or the default if there is none. -/
def NumberOr (defaultVal : Int32) (str : Bytes) (v : Int32) : Prop :=
  IsNumeral str v.toInt ∨ v = defaultVal ∧ ∀ w : Int32, ¬ IsNumeral str w.toInt

theorem NumberOr.unique {defaultVal : Int32} {str : Bytes} {v w : Int32}
    (hv : NumberOr defaultVal str v) (hw : NumberOr defaultVal str w) : v = w := by
  rcases hv with hv | ⟨rfl, hnone⟩
  · rcases hw with hw | ⟨_, hnone⟩
    · exact Int32.toInt_inj.mp (hv.unique hw)
    · exact absurd hv (hnone v)
  · rcases hw with hw | ⟨rfl, _⟩
    · exact absurd hw (hnone w)
    · rfl

theorem safeStoi_of_isNumeral {str : Bytes} {defaultVal v : Int32}
    (h : IsNumeral str v.toInt) : safeStoi str defaultVal = v := by
  unfold safeStoi
  rw [if_neg h.ne_nil, stoi_eq_ok_length.mpr h]
  exact if_neg fun hne => hne rfl

/-- Whatever stops `stoi`: no digits, text behind them, or a number too large. -/
theorem safeStoi_of_not {str : Bytes} {defaultVal : Int32}
    (h : ∀ w : Int32, ¬ IsNumeral str w.toInt) : safeStoi str defaultVal = defaultVal := by
  unfold safeStoi
  by_cases hnil : str = []
  · exact if_pos hnil
  · rw [if_neg hnil]
    cases hstoi : stoi str with
    | error e => rfl
    | ok p =>
      obtain ⟨val, pos⟩ := p
      have hpos : pos ≠ str.length := by
        rintro rfl
        exact h val (stoi_eq_ok_length.mp hstoi)
      exact if_pos hpos

/-- **`safe_stoi` reads whole numerals and nothing else.** -/
theorem numberOr_safeStoi (str : Bytes) (defaultVal : Int32) :
    NumberOr defaultVal str (safeStoi str defaultVal) := by
  by_cases h : ∃ v : Int32, IsNumeral str v.toInt
  · obtain ⟨v, hv⟩ := h
    rw [safeStoi_of_isNumeral hv]
    exact Or.inl hv
  · have hnone : ∀ w : Int32, ¬ IsNumeral str w.toInt := fun w hw => h ⟨w, hw⟩
    exact Or.inr ⟨safeStoi_of_not hnone, hnone⟩

/-! ## One lookup -/

theorem getConfigValue_eq_iff {doc : List Line} {final : Bool} {sectionName key value : Bytes} :
    getConfigValue (some (text doc final)) sectionName key = value
      ↔ Finds doc sectionName key value := by
  have hfinds : Finds doc sectionName key
      (getConfigValue (some (text doc final)) sectionName key) := by
    rw [getConfigValue_eq]
    exact scanLines_finds [] doc fun _ _ _ => Nat.zero_le _
  constructor
  · rintro rfl
    exact hfinds
  · intro h
    exact hfinds.unique h

/-! ## The settings -/

/-- `"server"`. -/
def server : Bytes := [115, 101, 114, 118, 101, 114]
/-- `"mysql"`. -/
def mysql : Bytes := [109, 121, 115, 113, 108]
/-- `"redis"`. -/
def redis : Bytes := [114, 101, 100, 105, 115]
/-- `"host"`. -/
def host : Bytes := [104, 111, 115, 116]
/-- `"port"`. -/
def port : Bytes := [112, 111, 114, 116]
/-- `"database"`. -/
def database : Bytes := [100, 97, 116, 97, 98, 97, 115, 101]
/-- `"username"`. -/
def username : Bytes := [117, 115, 101, 114, 110, 97, 109, 101]
/-- `"password"`. -/
def password : Bytes := [112, 97, 115, 115, 119, 111, 114, 100]
/-- `"0.0.0.0"`. -/
def anyAddress : Bytes := [48, 46, 48, 46, 48, 46, 48]

/-- What the constructors of the server, the pool and the cache are given. -/
structure Settings where
  address : Bytes
  port : Int16
  mysqlHost : Bytes
  mysqlPort : Int32
  mysqlDb : Bytes
  mysqlUser : Bytes
  mysqlPass : Bytes
  redisHost : Bytes
  redisPort : Int32
  deriving DecidableEq, Repr

/-- `main`, as far as the first constructor. -/
def settings (configFile : Option Bytes) : Settings :=
  let host' := getConfigValue configFile server host
  let portStr := getConfigValue configFile server port
  let mysqlPortStr := getConfigValue configFile mysql port
  let redisPortStr := getConfigValue configFile redis port
  { address := if host' = [] then anyAddress else host'
    port := (safeStoi portStr 8888).toInt16
    mysqlHost := getConfigValue configFile mysql host
    mysqlPort := safeStoi mysqlPortStr 3306
    mysqlDb := getConfigValue configFile mysql database
    mysqlUser := getConfigValue configFile mysql username
    mysqlPass := getConfigValue configFile mysql password
    redisHost := getConfigValue configFile redis host
    redisPort := safeStoi redisPortStr 6379 }

/-- The port of the `tcp::endpoint` that is bound. -/
def Settings.listenPort (s : Settings) : UInt16 :=
  s.port.toUInt16

/-- What a document sets to a number, with a default. -/
def FindsNumber (doc : List Line) (sectionName key : Bytes) (defaultVal v : Int32) : Prop :=
  ∃ str, Finds doc sectionName key str ∧ NumberOr defaultVal str v

theorem findsNumber_iff {doc : List Line} {final : Bool} {sectionName key : Bytes}
    {defaultVal v : Int32} :
    FindsNumber doc sectionName key defaultVal v
      ↔ safeStoi (getConfigValue (some (text doc final)) sectionName key) defaultVal = v := by
  constructor
  · intro ⟨str, hfinds, hnumber⟩
    rw [getConfigValue_eq_iff.mpr hfinds]
    exact (numberOr_safeStoi str defaultVal).unique hnumber
  · rintro rfl
    exact ⟨_, getConfigValue_eq_iff.mp rfl, numberOr_safeStoi _ _⟩

/-- A `short` and the port in the endpoint have the same 16 bits. -/
theorem eq_toInt16_iff {p : Int16} {v : Int32} :
    p = v.toInt16 ↔ (p.toUInt16.toNat : Int) = v.toInt % 2 ^ 16 := by
  have hp : p.toInt = (p.toUInt16.toNat : Int).bmod (2 ^ 16) := p.toBitVec.toInt_eq_toNat_bmod
  have hlt : p.toUInt16.toNat < 2 ^ 16 := p.toUInt16.toNat_lt
  constructor
  · intro h
    have hv : v.toInt.bmod (2 ^ 16) = (p.toUInt16.toNat : Int).bmod (2 ^ 16) := by
      rw [← hp, h, Int32.toInt_toInt16]
    have hmod : ∀ x : Int, x.bmod (2 ^ 16) % 2 ^ 16 = x % 2 ^ 16 := by
      intro x
      exact_mod_cast Int.bmod_emod (x := x) (m := 2 ^ 16)
    calc (p.toUInt16.toNat : Int)
      _ = (p.toUInt16.toNat : Int) % 2 ^ 16 := by omega
      _ = v.toInt % 2 ^ 16 := by rw [← hmod, ← hv, hmod]
  · intro h
    rw [← Int16.toInt_inj, hp, h, Int32.toInt_toInt16]
    exact Int.emod_bmod ..

/-- **What a document configures.** -/
structure Configures (doc : List Line) (s : Settings) : Prop where
  address : ∃ str, Finds doc server host str ∧ s.address = if str = [] then anyAddress else str
  /-- The port that is bound, as far as 16 bits hold it. -/
  port : ∃ v, FindsNumber doc server port 8888 v ∧ (s.listenPort.toNat : Int) = v.toInt % 2 ^ 16
  mysqlHost : Finds doc mysql host s.mysqlHost
  mysqlPort : FindsNumber doc mysql Startup.port 3306 s.mysqlPort
  mysqlDb : Finds doc mysql database s.mysqlDb
  mysqlUser : Finds doc mysql username s.mysqlUser
  mysqlPass : Finds doc mysql password s.mysqlPass
  redisHost : Finds doc redis host s.redisHost
  redisPort : FindsNumber doc redis Startup.port 6379 s.redisPort

theorem configures_settings (doc : List Line) (final : Bool) :
    Configures doc (settings (some (text doc final))) where
  address := ⟨_, getConfigValue_eq_iff.mp rfl, rfl⟩
  port := ⟨_, findsNumber_iff.mpr rfl, eq_toInt16_iff.mp rfl⟩
  mysqlHost := getConfigValue_eq_iff.mp rfl
  mysqlPort := findsNumber_iff.mpr rfl
  mysqlDb := getConfigValue_eq_iff.mp rfl
  mysqlUser := getConfigValue_eq_iff.mp rfl
  mysqlPass := getConfigValue_eq_iff.mp rfl
  redisHost := getConfigValue_eq_iff.mp rfl
  redisPort := findsNumber_iff.mpr rfl

/-- **The settings are those that the document configures**, and no others are. -/
theorem configures_iff (doc : List Line) (final : Bool) (s : Settings) :
    Configures doc s ↔ settings (some (text doc final)) = s := by
  constructor
  · intro h
    obtain ⟨str, hstr, haddress⟩ := h.address
    obtain ⟨v, hv, hport⟩ := h.port
    obtain ⟨address, port, mysqlHost, mysqlPort, mysqlDb, mysqlUser, mysqlPass, redisHost,
      redisPort⟩ := s
    unfold settings
    dsimp only
    rw [getConfigValue_eq_iff.mpr hstr, findsNumber_iff.mp hv,
      getConfigValue_eq_iff.mpr h.mysqlHost, findsNumber_iff.mp h.mysqlPort,
      getConfigValue_eq_iff.mpr h.mysqlDb, getConfigValue_eq_iff.mpr h.mysqlUser,
      getConfigValue_eq_iff.mpr h.mysqlPass, getConfigValue_eq_iff.mpr h.redisHost,
      findsNumber_iff.mp h.redisPort, ← eq_toInt16_iff.mpr hport, ← haddress]
  · rintro rfl
    exact configures_settings doc final

/-- A port number is bound as it stands in the file, also where it is no `short`. -/
theorem listenPort_eq {doc : List Line} {s : Settings} (h : Configures doc s) {str : Bytes}
    (hstr : Finds doc server port str) {n : Nat} (hn : n < 2 ^ 16) (hnum : IsNumeral str n) :
    s.listenPort.toNat = n := by
  obtain ⟨v, ⟨str', hstr', hv⟩, hport⟩ := h.port
  rw [hstr'.unique hstr] at hv
  have hval : v.toInt = n := by
    have hint : (Int32.ofNat n).toInt = n := Int32.toInt_ofNat_of_lt (by omega)
    rw [hv.unique (Or.inl (hint.symm ▸ hnum)), hint]
  rw [hval] at hport
  omega

/-- A file that does not open configures what an empty one does. -/
theorem configures_nil : Configures [] (settings none) := by
  have hnone : getConfigValue none = getConfigValue (some (text [] false)) := by
    funext sectionName key
    rw [getConfigValue_eq]
    rfl
  have hsettings : settings none = settings (some (text [] false)) := by
    unfold settings
    rw [hnone]
  rw [hsettings]
  exact configures_settings [] false

end QQChat.Server.Startup
