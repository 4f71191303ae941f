import Mathlib.Data.List.TakeWhile
import Mathlib.Data.Nat.Digits.Defs

/-!
# Numerals

The text of a number, and the number of a text: what `std::to_string` and `std::hex`
print (`toString`, `digits`), and what `strtol` reads (`strtol`).

`strtol` skips spaces, takes a sign and then every digit there is, so it reads a
printed number back with whatever stands behind it, as long as that does not begin
with a digit (`strtol_toString`). Hence a printed number is never the beginning of
another one with a separator behind it (`toString_append_inj`). Of a whole text it
accepts exactly the numerals (`strtol_eq_some_nil`), and `stoi` those of an `int`
(`stoi_eq_ok_length`).
-/

namespace QQChat.Numeral

/-! ## Digits -/

/-- The digit for `d`, lower-case from ten on. -/
def digitChar (d : Nat) : UInt8 :=
  UInt8.ofNat (if d < 10 then 48 + d else 87 + d)

def digitValue (c : UInt8) : Nat :=
  if c.toNat < 58 then c.toNat - 48 else c.toNat - 87

theorem toNat_digitChar {d : Nat} (h : d < 16) :
    (digitChar d).toNat = if d < 10 then 48 + d else 87 + d := by
  unfold digitChar
  rw [UInt8.toNat_ofNat']
  split <;> omega

theorem digitValue_digitChar {d : Nat} (h : d < 16) : digitValue (digitChar d) = d := by
  unfold digitValue
  rw [toNat_digitChar h]
  split <;> split <;> omega

/-- A number in base `b`, the most significant digit first. -/
def digits (b n : Nat) : List UInt8 :=
  if n = 0 then [digitChar 0] else (Nat.digits b n).reverse.map digitChar

/-- The number that digits in base `b` stand for. -/
def value (b : Nat) (ds : List UInt8) : Nat :=
  Nat.ofDigits b (ds.map digitValue).reverse

section

variable {b : Nat}

theorem exists_of_mem_digits (hb : 1 < b) {n : Nat} {c : UInt8} (hc : c ∈ digits b n) :
    ∃ d < b, c = digitChar d := by
  unfold digits at hc
  split at hc
  · exact ⟨0, by omega, List.mem_singleton.mp hc⟩
  · obtain ⟨d, hd, rfl⟩ := List.mem_map.mp hc
    exact ⟨d, Nat.digits_lt_base hb (List.mem_reverse.mp hd), rfl⟩

theorem zero_notMem_digits (hb : 1 < b) (h16 : b ≤ 16) (n : Nat) : 0 ∉ digits b n := by
  intro hzero
  obtain ⟨d, hd, hchar⟩ := exists_of_mem_digits hb hzero
  have hnat := toNat_digitChar (Nat.lt_of_lt_of_le hd h16)
  rw [← hchar, UInt8.toNat_zero] at hnat
  split at hnat <;> omega

theorem digits_ne_nil (b n : Nat) : digits b n ≠ [] := by
  unfold digits
  split
  · exact List.cons_ne_nil _ _
  next hn =>
    intro hnil
    rw [List.map_eq_nil_iff, List.reverse_eq_nil_iff, Nat.digits_eq_nil_iff_eq_zero] at hnil
    exact hn hnil

/-- A printed number reads back. -/
theorem value_digits (hb : 1 < b) (h16 : b ≤ 16) (n : Nat) : value b (digits b n) = n := by
  unfold value digits
  split
  next hn =>
    subst hn
    simp [Nat.ofDigits_singleton, digitValue_digitChar]
  next hn =>
    have hback : ∀ d ∈ Nat.digits b n, (digitValue ∘ digitChar) d = id d := fun d hd =>
      digitValue_digitChar (Nat.lt_of_lt_of_le (Nat.digits_lt_base hb hd) h16)
    rw [List.map_reverse, List.map_reverse, List.reverse_reverse, List.map_map,
      List.map_congr_left hback, List.map_id, Nat.ofDigits_digits]

theorem digits_injective (hb : 1 < b) (h16 : b ≤ 16) : Function.Injective (digits b) :=
  Function.LeftInverse.injective (value_digits hb h16)

end

/-! ## Signed decimal numbers -/

def isDigit (c : UInt8) : Bool :=
  48 ≤ c.toNat && c.toNat ≤ 57

theorem isDigit_of_mem_digits {n : Nat} {c : UInt8} (hc : c ∈ digits 10 n) :
    isDigit c = true := by
  obtain ⟨d, hd, rfl⟩ := exists_of_mem_digits (by decide) hc
  unfold isDigit
  rw [toNat_digitChar (by omega), if_pos hd, Bool.and_eq_true, decide_eq_true_iff,
    decide_eq_true_iff]
  omega

/-- `std::to_string`. -/
def toString (i : Int) : List UInt8 :=
  if i < 0 then 45 :: digits 10 i.natAbs else digits 10 i.natAbs

/-- What `isspace` holds of in the "C" locale. -/
def isSpace (c : UInt8) : Bool :=
  c = 32 || (9 ≤ c.toNat && c.toNat ≤ 13)

/-- An optional sign: whether it is a minus, and the text behind it. -/
def takeSign : List UInt8 → Bool × List UInt8
  | [] => (false, [])
  | c :: str => if c = 45 then (true, str) else if c = 43 then (false, str) else (false, c :: str)

/-- `strtol` with base 10: the number and the text behind it, `none` if there are no
digits. A number too large for a `long` is not capped. -/
def strtol (str : List UInt8) : Option (Int × List UInt8) :=
  let (negative, str) := takeSign (str.dropWhile isSpace)
  let ds := str.takeWhile isDigit
  if ds = [] then none
  else some (if negative then -(value 10 ds : Int) else value 10 ds, str.dropWhile isDigit)

theorem takeSign_of_isDigit {str : List UInt8} (h : ∃ c, str.head? = some c ∧ isDigit c = true) :
    takeSign str = (false, str) := by
  obtain ⟨c, hhead, hc⟩ := h
  cases str with
  | nil => cases hhead
  | cons d str =>
    cases hhead
    have hminus : c ≠ 45 := fun heq => absurd (heq ▸ hc) (by decide)
    have hplus : c ≠ 43 := fun heq => absurd (heq ▸ hc) (by decide)
    exact (if_neg hminus).trans (if_neg hplus)

theorem isSpace_of_isDigit {c : UInt8} (h : isDigit c = true) : isSpace c = false := by
  unfold isDigit at h
  rw [Bool.and_eq_true, decide_eq_true_iff, decide_eq_true_iff] at h
  unfold isSpace
  rw [Bool.or_eq_false_iff]
  refine ⟨decide_eq_false fun heq => ?_, ?_⟩
  · rw [heq] at h
    exact absurd h (by decide)
  · rw [Bool.and_eq_false_iff, decide_eq_false_iff_not, decide_eq_false_iff_not]
    omega

section

variable {rest : List UInt8}

/-- The digits of a printed number end where the text behind it begins. -/
theorem digits_append_span (n : Nat) (h : ∀ c, rest.head? = some c → isDigit c = false) :
    (digits 10 n ++ rest).takeWhile isDigit = digits 10 n
      ∧ (digits 10 n ++ rest).dropWhile isDigit = rest := by
  have hall : ∀ c ∈ digits 10 n, isDigit c = true := fun c hc => isDigit_of_mem_digits hc
  rw [List.takeWhile_append_of_pos hall, List.dropWhile_append_of_pos hall]
  cases rest with
  | nil => exact ⟨List.append_nil _, rfl⟩
  | cons c rest =>
    have hc : isDigit c = false := h c rfl
    rw [List.takeWhile_cons_of_neg (by rw [hc]; exact Bool.false_ne_true), List.append_nil,
      List.dropWhile_cons_of_neg (by rw [hc]; exact Bool.false_ne_true)]
    exact ⟨rfl, rfl⟩

theorem head_digits (n : Nat) (rest : List UInt8) :
    ∃ c, (digits 10 n ++ rest).head? = some c ∧ isDigit c = true := by
  obtain ⟨c, ds, hds⟩ := List.exists_cons_of_ne_nil (digits_ne_nil 10 n)
  refine ⟨c, by rw [hds]; rfl, isDigit_of_mem_digits (n := n) ?_⟩
  rw [hds]
  exact List.mem_cons_self

theorem dropWhile_isSpace_append {spaces rest : List UInt8}
    (hspaces : ∀ c ∈ spaces, isSpace c = true)
    (hrest : ∀ c, rest.head? = some c → isSpace c = false) :
    (spaces ++ rest).dropWhile isSpace = rest := by
  rw [List.dropWhile_append_of_pos hspaces]
  cases rest with
  | nil => rfl
  | cons c rest =>
    exact List.dropWhile_cons_of_neg (by rw [hrest c rfl]; exact Bool.false_ne_true)

/-- **A printed number is read back**, up to where its digits end. -/
theorem strtol_toString (i : Int) (h : ∀ c, rest.head? = some c → isDigit c = false) :
    strtol (toString i ++ rest) = some (i, rest) := by
  obtain ⟨hds, hrest⟩ := digits_append_span i.natAbs h
  have hvalue := value_digits (b := 10) (by decide) (by decide) i.natAbs
  unfold strtol toString
  by_cases hi : i < 0
  · have hspace : ((45 : UInt8) :: digits 10 i.natAbs ++ rest).dropWhile isSpace
        = 45 :: (digits 10 i.natAbs ++ rest) := rfl
    rw [if_pos hi, hspace]
    show (if (digits 10 i.natAbs ++ rest).takeWhile isDigit = [] then none else some
      (-(value 10 ((digits 10 i.natAbs ++ rest).takeWhile isDigit) : Int),
        (digits 10 i.natAbs ++ rest).dropWhile isDigit)) = _
    rw [hds, hrest, if_neg (digits_ne_nil _ _), hvalue]
    exact congrArg some (congrArg (·, rest) (by omega))
  · have hhead := head_digits i.natAbs rest
    have hspace : ([] ++ (digits 10 i.natAbs ++ rest)).dropWhile isSpace
        = digits 10 i.natAbs ++ rest := by
      refine dropWhile_isSpace_append (fun _ hc => absurd hc List.not_mem_nil) ?_
      obtain ⟨d, hd, hdigit⟩ := hhead
      intro c hc
      have heq : d = c := Option.some_inj.mp (hd.symm.trans hc)
      exact heq ▸ isSpace_of_isDigit hdigit
    rw [List.nil_append] at hspace
    rw [if_neg hi, hspace, takeSign_of_isDigit hhead]
    dsimp only
    rw [hds, hrest, if_neg (digits_ne_nil _ _), if_neg Bool.false_ne_true, hvalue]
    exact congrArg some (congrArg (·, rest) (by omega))

theorem strtol_toString_self (i : Int) : strtol (toString i) = some (i, []) := by
  have h : strtol (toString i ++ []) = some (i, []) := strtol_toString i fun _ hc => by cases hc
  rwa [List.append_nil] at h

theorem toString_injective : Function.Injective toString := by
  intro i j h
  have hi := strtol_toString_self i
  rw [h, strtol_toString_self j] at hi
  exact (congrArg Prod.fst (Option.some.inj hi)).symm

/-- A number, and a separator behind it. -/
theorem toString_append_inj {i j : Int} {rest' : List UInt8}
    (h : ∀ c, rest.head? = some c → isDigit c = false)
    (h' : ∀ c, rest'.head? = some c → isDigit c = false)
    (heq : toString i ++ rest = toString j ++ rest') : i = j ∧ rest = rest' := by
  have hi := strtol_toString i h
  rw [heq, strtol_toString j h'] at hi
  injection hi with hpair
  injection hpair with hij hrest
  exact ⟨hij.symm, hrest.symm⟩

theorem zero_notMem_toString (i : Int) : 0 ∉ toString i := by
  have hdigits := zero_notMem_digits (b := 10) (by decide) (by decide) i.natAbs
  unfold toString
  split
  · intro hmem
    rcases List.mem_cons.mp hmem with heq | hmem
    · exact absurd heq (by decide)
    · exact hdigits hmem
  · exact hdigits

end

/-! ## What `strtol` accepts -/

/-- Spaces, a sign or none, and at least one digit. -/
def IsNumeral (str : List UInt8) (i : Int) : Prop :=
  ∃ spaces sign ds, str = spaces ++ sign ++ ds ∧ (∀ c ∈ spaces, isSpace c = true)
    ∧ (sign = [] ∨ sign = [43] ∨ sign = [45]) ∧ ds ≠ [] ∧ (∀ c ∈ ds, isDigit c = true)
    ∧ i = if sign = [45] then -(value 10 ds : Int) else value 10 ds

/-- A sign is no space and no digit. -/
theorem takeSign_append {sign ds : List UInt8} (hsign : sign = [] ∨ sign = [43] ∨ sign = [45])
    (hne : ds ≠ []) (hds : ∀ c ∈ ds, isDigit c = true) :
    takeSign (sign ++ ds) = (decide (sign = [45]), ds) := by
  obtain ⟨d, ds', rfl⟩ := List.exists_cons_of_ne_nil hne
  rcases hsign with rfl | rfl | rfl
  · exact takeSign_of_isDigit ⟨d, rfl, hds d List.mem_cons_self⟩
  · rfl
  · rfl

theorem takeSign_spec (str : List UInt8) : ∃ sign, str = sign ++ (takeSign str).2
    ∧ (sign = [] ∨ sign = [43] ∨ sign = [45]) ∧ ((takeSign str).1 = true ↔ sign = [45]) := by
  cases str with
  | nil => exact ⟨[], rfl, Or.inl rfl, by decide⟩
  | cons c str =>
    show ∃ sign, c :: str = sign ++ (if c = 45 then (true, str) else if c = 43 then (false, str)
      else (false, c :: str)).2 ∧ _ ∧ ((if c = 45 then (true, str) else if c = 43 then (false, str)
      else (false, c :: str)).1 = true ↔ _)
    split
    next h => exact ⟨[45], by rw [h]; rfl, Or.inr (Or.inr rfl), iff_of_true rfl rfl⟩
    next =>
      split
      next h =>
        refine ⟨[43], by rw [h]; rfl, Or.inr (Or.inl rfl), ?_⟩
        exact iff_of_false Bool.false_ne_true (by decide)
      next => exact ⟨[], rfl, Or.inl rfl, iff_of_false Bool.false_ne_true (by decide)⟩

/-- **`strtol` reads a whole text exactly if it is a numeral.** -/
theorem strtol_eq_some_nil {str : List UInt8} {i : Int} :
    strtol str = some (i, []) ↔ IsNumeral str i := by
  constructor
  · intro h
    obtain ⟨sign, hstr, hsign, hminus⟩ := takeSign_spec (str.dropWhile isSpace)
    unfold strtol at h
    dsimp only at h
    split at h
    · cases h
    next hne =>
      injection h with hpair
      injection hpair with hi hrest
      have hds : (takeSign (str.dropWhile isSpace)).2.takeWhile isDigit
          = (takeSign (str.dropWhile isSpace)).2 := by
        have hsplit := List.takeWhile_append_dropWhile (p := isDigit)
          (l := (takeSign (str.dropWhile isSpace)).2)
        rwa [hrest, List.append_nil] at hsplit
      rw [hds] at hne hi
      refine ⟨str.takeWhile isSpace, sign, _, ?_, fun c hc => List.mem_takeWhile_imp hc, hsign,
        hne, fun c hc => ?_, ?_⟩
      · rw [List.append_assoc, ← hstr, List.takeWhile_append_dropWhile]
      · rw [← hds] at hc
        exact List.mem_takeWhile_imp hc
      · rw [← hi]
        exact if_congr hminus rfl rfl
  · intro ⟨spaces, sign, ds, hstr, hspaces, hsign, hne, hds, hi⟩
    have hspace : str.dropWhile isSpace = sign ++ ds := by
      rw [hstr, List.append_assoc]
      refine dropWhile_isSpace_append hspaces fun c hc => ?_
      rcases hsign with rfl | rfl | rfl
      · exact isSpace_of_isDigit (hds c (List.mem_of_head? hc))
      · cases hc
        decide
      · cases hc
        decide
    have htake : ds.takeWhile isDigit = ds := List.takeWhile_eq_self_iff.mpr hds
    have hdrop : ds.dropWhile isDigit = [] := List.dropWhile_eq_nil_iff.mpr hds
    unfold strtol
    rw [hspace, takeSign_append hsign hne hds]
    dsimp only
    rw [htake, hdrop, if_neg hne, hi]
    simp only [decide_eq_true_eq]

/-- A text is a numeral for one number only. -/
theorem IsNumeral.unique {str : List UInt8} {i j : Int} (hi : IsNumeral str i)
    (hj : IsNumeral str j) : i = j := by
  have hboth : some (i, ([] : List UInt8)) = some (j, []) :=
    (strtol_eq_some_nil.mpr hi).symm.trans (strtol_eq_some_nil.mpr hj)
  exact congrArg Prod.fst (Option.some.inj hboth)

theorem IsNumeral.ne_nil {str : List UInt8} {i : Int} (h : IsNumeral str i) : str ≠ [] := by
  rintro rfl
  cases strtol_eq_some_nil.mpr h

/-! ## `std::stoi` -/

inductive StoiError where
  | invalidArgument
  | outOfRange
  deriving DecidableEq, Repr

/-- The values of an `int`. -/
def IsInt (i : Int) : Prop :=
  -2 ^ 31 ≤ i ∧ i < 2 ^ 31

instance (i : Int) : Decidable (IsInt i) :=
  inferInstanceAs (Decidable (_ ∧ _))

/-- `std::stoi`: the number, and what it stores as the number of characters processed.
A number that is no `int` is out of range, whether it is a `long` or not. -/
def stoi (str : List UInt8) : Except StoiError (Int32 × Nat) :=
  match strtol str with
  | none => .error .invalidArgument
  | some (i, rest) =>
    if IsInt i then .ok (Int32.ofInt i, str.length - rest.length) else .error .outOfRange

theorem isInt_toInt (n : Int32) : IsInt n.toInt :=
  ⟨Int32.le_toInt n, Int32.toInt_lt n⟩

/-- A printed number, whole. -/
theorem stoi_toString (i : Int) : stoi (toString i) =
    if IsInt i then .ok (Int32.ofInt i, (toString i).length) else .error .outOfRange := by
  unfold stoi
  rw [strtol_toString_self]
  rfl

/-- **`stoi` processes a whole text exactly if it is a numeral** for the `int` it returns. -/
theorem stoi_eq_ok_length {str : List UInt8} {val : Int32} :
    stoi str = .ok (val, str.length) ↔ IsNumeral str val.toInt := by
  rw [← strtol_eq_some_nil]
  unfold stoi
  cases h : strtol str with
  | none => exact iff_of_false (fun heq => by cases heq) (fun heq => by cases heq)
  | some p =>
    obtain ⟨i, rest⟩ := p
    have hne : str ≠ [] := by
      rintro rfl
      cases h
    have hpos : 0 < str.length := List.length_pos_iff.mpr hne
    dsimp only
    constructor
    · intro hok
      split at hok
      next hint =>
        injection hok with hpair
        obtain ⟨hval, hlen⟩ := Prod.mk.inj hpair
        have hrest : rest = [] := List.length_eq_zero_iff.mp (by omega)
        rw [hrest, ← hval, Int32.toInt_ofInt_of_le hint.1 hint.2]
      next => cases hok
    · intro hsome
      obtain ⟨rfl, rfl⟩ := Prod.mk.inj (Option.some.inj hsome)
      rw [if_pos (isInt_toInt val), Int32.ofInt_toInt]
      rfl

end QQChat.Numeral
