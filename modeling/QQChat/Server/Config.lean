import Mathlib.Data.List.Basic
import Mathlib.Data.List.Induction
import QQChat.Lib.Lines
import QQChat.Wire.Bytes

/-!
# The configuration file

`get_config_value` (`main.cpp`) opens the file and reads it line by line until it finds
the key in the section that was asked for; `main` calls it for every value it needs.

Mirroring notes:
- The file is its bytes, or `none` if it does not open; the log line is left out.
- `std::getline` is `Lines.getline` at the line feed. A CR stays in the line, and `trim`
  takes it off.
- `scanLine` is the body of the loop. It returns the section for the next round, and
  throws what the source returns in the middle of the loop.
- `npos` is `none`.
- The parameter `section` is called `sectionName`.
-/

namespace QQChat.Server.Config

open Lines

def lineFeed : UInt8 := 10
def hash : UInt8 := 35
def semicolon : UInt8 := 59
def equals : UInt8 := 61
def openBracket : UInt8 := 91
def closeBracket : UInt8 := 93

/-- `" \t\r\n"`. -/
def blanks : Bytes := [32, 9, 13, lineFeed]

/-! ## `trim` -/

def findFirstNotOf (str chars : Bytes) : Option Nat :=
  str.findIdx? (· ∉ chars)

def findLastNotOf (str chars : Bytes) : Option Nat :=
  (str.reverse.findIdx? (· ∉ chars)).map fun i => str.length - 1 - i

def find (str : Bytes) (c : UInt8) : Option Nat :=
  str.findIdx? (· = c)

def substr (str : Bytes) (pos count : Nat) : Bytes :=
  (str.drop pos).take count

/-- If there is a first such byte, there is a last one. -/
def trim (str : Bytes) : Bytes :=
  match findFirstNotOf str blanks, findLastNotOf str blanks with
  | some first, some last => substr str first (last - first + 1)
  | _, _ => []

/-! ## The loop -/

def scanLine (sectionName key currentSection line : Bytes) : Except Bytes Bytes :=
  let line := trim line
  if line = [] ∨ line.head? = some semicolon ∨ line.head? = some hash then
    .ok currentSection
  else if line.head? = some openBracket ∧ line.getLast? = some closeBracket then
    .ok (substr line 1 (line.length - 2))
  else
    match find line equals with
    | none => .ok currentSection
    | some pos =>
      let k := trim (substr line 0 pos)
      let v := trim (line.drop (pos + 1))
      if currentSection = sectionName ∧ k = key then .error v else .ok currentSection

/-- `while (std::getline(file, line))`. -/
def scan (sectionName key currentSection file : Bytes) : Bytes :=
  match _h : getline lineFeed file with
  | none => []
  | some (line, rest) =>
    match scanLine sectionName key currentSection line with
    | .error v => v
    | .ok currentSection => scan sectionName key currentSection rest
termination_by file.length
decreasing_by exact length_lt_of_getline _h

def getConfigValue (file : Option Bytes) (sectionName key : Bytes) : Bytes :=
  match file with
  | none => []
  | some file => scan sectionName key [] file

/-- The loop over the lines of a text. -/
def scanLines (sectionName key : Bytes) : Bytes → List Bytes → Bytes
  | _, [] => []
  | currentSection, line :: lines =>
    match scanLine sectionName key currentSection line with
    | .error v => v
    | .ok currentSection => scanLines sectionName key currentSection lines

theorem scan_eq (sectionName key currentSection file : Bytes) :
    scan sectionName key currentSection file
      = scanLines sectionName key currentSection (lines lineFeed file) := by
  rw [scan]
  split
  next h =>
    rw [getline_eq_none_iff.mp h]
    rfl
  next line rest h =>
    have hlt := length_lt_of_getline h
    rw [lines_of_getline h, scanLines]
    cases scanLine sectionName key currentSection line with
    | error v => rfl
    | ok currentSection => exact scan_eq sectionName key currentSection rest
termination_by file.length

/-! ## What `trim` takes off -/

/-- Neither the first nor the last byte is blank. -/
def NoOuterBlanks (str : Bytes) : Prop :=
  (∀ b ∈ str.head?, b ∉ blanks) ∧ ∀ b ∈ str.getLast?, b ∉ blanks

theorem findIdx?_append_cons {p : UInt8 → Bool} {before after : Bytes} {b : UInt8}
    (h : ∀ c ∈ before, p c = false) (hb : p b = true) :
    (before ++ b :: after).findIdx? p = some before.length := by
  rw [List.findIdx?_append, List.findIdx?_eq_none_iff.mpr h, List.findIdx?_cons, if_pos hb]
  exact congrArg some (Nat.zero_add _)

theorem findFirstNotOf_pad {left rest : Bytes} {b : UInt8} (hleft : ∀ b ∈ left, b ∈ blanks)
    (hb : b ∉ blanks) : findFirstNotOf (left ++ b :: rest) blanks = some left.length :=
  findIdx?_append_cons (fun c hc => decide_eq_false fun hnot => hnot (hleft c hc))
    (decide_eq_true hb)

theorem findLastNotOf_pad {first right : Bytes} {b : UInt8} (hright : ∀ b ∈ right, b ∈ blanks)
    (hb : b ∉ blanks) :
    findLastNotOf (first ++ b :: right) blanks = some first.length := by
  have hreverse : (first ++ b :: right).reverse = right.reverse ++ b :: first.reverse := by
    rw [List.reverse_append, List.reverse_cons, List.append_assoc, List.singleton_append]
  have hfirst : (right.reverse ++ b :: first.reverse).findIdx? (· ∉ blanks)
      = some right.reverse.length :=
    findFirstNotOf_pad (fun c hc => hright c (List.mem_reverse.mp hc)) hb
  unfold findLastNotOf
  rw [hreverse, hfirst, Option.map_some, List.length_append, List.length_cons,
    List.length_reverse]
  exact congrArg some (by omega)

theorem trim_of_blank {str : Bytes} (h : ∀ b ∈ str, b ∈ blanks) : trim str = [] := by
  have hnone : findFirstNotOf str blanks = none :=
    List.findIdx?_eq_none_iff.mpr fun c hc => decide_eq_false fun hnot => hnot (h c hc)
  rw [trim, hnone]

/-- **`trim` takes off the outer blanks, and nothing else.** -/
theorem trim_pad {left str right : Bytes} (hleft : ∀ b ∈ left, b ∈ blanks)
    (hright : ∀ b ∈ right, b ∈ blanks) (h : NoOuterBlanks str) :
    trim (left ++ str ++ right) = str := by
  rcases List.eq_nil_or_concat' str with rfl | ⟨init, last, hlast⟩
  · rw [List.append_nil]
    refine trim_of_blank fun b hb => ?_
    rcases List.mem_append.mp hb with hl | hr
    · exact hleft b hl
    · exact hright b hr
  · obtain ⟨first, tail, hfirst⟩ := List.exists_cons_of_ne_nil
      (show str ≠ [] by rw [hlast]; exact List.concat_ne_nil last init)
    have hf : first ∉ blanks := h.1 first (by rw [hfirst]; rfl)
    have hl : last ∉ blanks := h.2 last (by rw [hlast, List.getLast?_concat]; rfl)
    have hfirstOf : findFirstNotOf (left ++ str ++ right) blanks = some left.length := by
      rw [hfirst, List.append_assoc, List.cons_append]
      exact findFirstNotOf_pad hleft hf
    have hlastOf : findLastNotOf (left ++ str ++ right) blanks
        = some (left.length + init.length) := by
      rw [hlast, ← List.append_assoc, List.append_assoc, List.singleton_append,
        ← List.length_append]
      exact findLastNotOf_pad hright hl
    have hlength : str.length = init.length + 1 := by
      rw [hlast, List.length_append, List.length_singleton]
    rw [trim, hfirstOf, hlastOf]
    show substr _ _ _ = str
    rw [substr, List.append_assoc, List.drop_left, show left.length + init.length - left.length + 1
      = str.length by omega, List.take_left]

theorem forall_mem_nil : ∀ b ∈ ([] : Bytes), b ∈ blanks :=
  fun _ hb => absurd hb List.not_mem_nil

/-- What begins with a byte that is not blank ends in blanks, behind one that is not. -/
theorem exists_core {b : UInt8} (hb : b ∉ blanks) (rest : Bytes) :
    ∃ core right, rest = core ++ right ∧ NoOuterBlanks (b :: core) ∧ ∀ c ∈ right, c ∈ blanks := by
  have hfirst : ∀ core : Bytes, ∀ c ∈ (b :: core).head?, c ∉ blanks := fun core c hc =>
    Option.some.inj hc ▸ hb
  induction rest using List.reverseRecOn with
  | nil =>
    exact ⟨[], [], rfl, ⟨hfirst [], hfirst []⟩, forall_mem_nil⟩
  | append_singleton rest last ih =>
    by_cases hlast : last ∈ blanks
    · obtain ⟨core, right, rfl, hcore, hright⟩ := ih
      refine ⟨core, right ++ [last], List.append_assoc .., hcore, fun c hc => ?_⟩
      rcases List.mem_append.mp hc with hmem | hmem
      · exact hright c hmem
      · rwa [List.mem_singleton.mp hmem]
    · refine ⟨rest ++ [last], [], (List.append_nil _).symm, ⟨hfirst _, fun c hc => ?_⟩,
        forall_mem_nil⟩
      rw [← List.cons_append, List.getLast?_concat] at hc
      rwa [← Option.some.inj hc]

theorem head?_trim {left rest : Bytes} {b : UInt8} (hleft : ∀ c ∈ left, c ∈ blanks)
    (hb : b ∉ blanks) : (trim (left ++ b :: rest)).head? = some b := by
  obtain ⟨core, right, rfl, hcore, hright⟩ := exists_core hb rest
  have htrim := trim_pad hleft hright hcore
  rw [List.append_assoc, List.cons_append] at htrim
  rw [htrim]
  rfl

/-! ## Configuration texts -/

/-- Blanks that may stand around anything: spaces, tabs and CRs. -/
abbrev Pad := { pad : Bytes // ∀ b ∈ pad, b ≠ lineFeed ∧ b ∈ blanks }

/-- Any bytes within a line. -/
abbrev Unbroken := { str : Bytes // lineFeed ∉ str }

structure Key where
  str : Bytes
  ne_nil : str ≠ []
  unbroken : lineFeed ∉ str
  noEquals : equals ∉ str
  noMark : ∀ b ∈ str.head?, b ≠ semicolon ∧ b ≠ hash ∧ b ≠ openBracket
  noOuterBlanks : NoOuterBlanks str

structure Value where
  str : Bytes
  unbroken : lineFeed ∉ str
  noOuterBlanks : NoOuterBlanks str

/-- The lines that a configuration file is made of. -/
inductive Line where
  | blank (pad : Pad)
  | comment (pad : Pad) (mark : { b : UInt8 // b = semicolon ∨ b = hash }) (rest : Unbroken)
  | header (left : Pad) (name : Unbroken) (right : Pad)
  | entry (left : Pad) (key : Key) (beforeEquals afterEquals : Pad) (value : Value) (right : Pad)

namespace Line

def bytes : Line → Bytes
  | blank pad => pad.val
  | comment pad mark rest => pad.val ++ mark.val :: rest.val
  | header left name right => left.val ++ openBracket :: name.val ++ closeBracket :: right.val
  | entry left key beforeEquals afterEquals value right =>
    left.val ++ key.str ++ beforeEquals.val ++ equals :: afterEquals.val ++ value.str ++ right.val

/-- The name in a header. -/
def header? : Line → Option Bytes
  | header _ name _ => some name.val
  | _ => none

/-- The key and the value of an entry. -/
def entry? : Line → Option (Bytes × Bytes)
  | entry _ key _ _ value _ => some (key.str, value.str)
  | _ => none

theorem lineFeed_notMem_pad (pad : Pad) : lineFeed ∉ pad.val :=
  fun hmem => (pad.property _ hmem).1 rfl

theorem blank_of_mem_pad (pad : Pad) : ∀ b ∈ pad.val, b ∈ blanks :=
  fun b hb => (pad.property b hb).2

theorem lineFeed_notMem_bytes (line : Line) : lineFeed ∉ line.bytes := by
  cases line with
  | blank pad => exact lineFeed_notMem_pad pad
  | comment pad mark rest =>
    have hmark : lineFeed ≠ mark.val := by
      rcases mark.property with h | h <;> rw [h] <;> decide
    simp only [bytes, List.mem_append, List.mem_cons, not_or]
    exact ⟨lineFeed_notMem_pad pad, hmark, rest.property⟩
  | header left name right =>
    simp only [bytes, List.mem_append, List.mem_cons, not_or]
    exact ⟨⟨lineFeed_notMem_pad left, by decide, name.property⟩, by decide,
      lineFeed_notMem_pad right⟩
  | entry left key beforeEquals afterEquals value right =>
    simp only [bytes, List.mem_append, List.mem_cons, not_or]
    exact ⟨⟨⟨⟨⟨lineFeed_notMem_pad left, key.unbroken⟩, lineFeed_notMem_pad beforeEquals⟩,
      by decide, lineFeed_notMem_pad afterEquals⟩, value.unbroken⟩, lineFeed_notMem_pad right⟩

end Line

/-- The text of the lines, with a line feed at the end or without. -/
def text (doc : List Line) (final : Bool) : Bytes :=
  [lineFeed].intercalate (doc.map Line.bytes) ++ if final then [lineFeed] else []

/-! ## One line -/

section

variable (sectionName key currentSection : Bytes)

theorem scanLine_blank (pad : Pad) :
    scanLine sectionName key currentSection (Line.blank pad).bytes = .ok currentSection := by
  have htrim : trim (Line.blank pad).bytes = [] := trim_of_blank (Line.blank_of_mem_pad pad)
  unfold scanLine
  rw [htrim]
  exact if_pos (Or.inl rfl)

theorem scanLine_comment (pad : Pad) (mark : { b : UInt8 // b = semicolon ∨ b = hash })
    (rest : Unbroken) :
    scanLine sectionName key currentSection (Line.comment pad mark rest).bytes
      = .ok currentSection := by
  have hmark : mark.val ∉ blanks := by
    rcases mark.property with h | h <;> rw [h] <;> decide
  have hhead : (trim (pad.val ++ mark.val :: rest.val)).head? = some mark.val :=
    head?_trim (Line.blank_of_mem_pad pad) hmark
  refine if_pos (Or.inr ?_)
  rcases mark.property with h | h
  · exact Or.inl (hhead.trans (congrArg some h))
  · exact Or.inr (hhead.trans (congrArg some h))

theorem scanLine_header (left : Pad) (name : Unbroken) (right : Pad) :
    scanLine sectionName key currentSection (Line.header left name right).bytes
      = .ok name.val := by
  have houter : NoOuterBlanks (openBracket :: (name.val ++ [closeBracket])) := by
    refine ⟨fun b hb => ?_, fun b hb => ?_⟩
    · rw [← Option.some.inj hb]
      decide
    · rw [← List.cons_append, List.getLast?_concat] at hb
      rw [← Option.some.inj hb]
      decide
  have htrim : trim (Line.header left name right).bytes
      = openBracket :: (name.val ++ [closeBracket]) := by
    have hpad := trim_pad (Line.blank_of_mem_pad left) (Line.blank_of_mem_pad right) houter
    rw [← hpad, Line.bytes]
    simp only [List.append_assoc, List.cons_append, List.nil_append]
  have hlast : (openBracket :: (name.val ++ [closeBracket])).getLast? = some closeBracket :=
    List.getLast?_concat (l := openBracket :: name.val)
  unfold scanLine
  rw [htrim]
  have hmark : ¬ (openBracket :: (name.val ++ [closeBracket]) = []
      ∨ some openBracket = some semicolon ∨ some openBracket = some hash) := by
    rintro (h | h | h)
    · cases h
    · exact absurd h (by decide)
    · exact absurd h (by decide)
  refine (if_neg hmark).trans ((if_pos ⟨rfl, hlast⟩).trans (congrArg Except.ok ?_))
  rw [substr, List.drop_one, List.tail_cons, List.length_cons, List.length_append,
    List.length_singleton]
  exact List.take_left

/-- A line that is trimmed to a key, blanks, an equals sign and the rest. -/
theorem scanLine_of_trim {line tail : Bytes} {k : Key} {pad : Pad}
    (h : trim line = k.str ++ (pad.val ++ equals :: tail)) :
    scanLine sectionName key currentSection line
      = if currentSection = sectionName ∧ k.str = key then .error (trim tail)
        else .ok currentSection := by
  obtain ⟨b, str, hstr⟩ := List.exists_cons_of_ne_nil k.ne_nil
  obtain ⟨hsemicolon, hhash, hbracket⟩ := k.noMark b (by rw [hstr]; rfl)
  have hhead : (trim line).head? = some b := by rw [h, hstr]; rfl
  have hmark : ¬ (trim line = [] ∨ (trim line).head? = some semicolon
      ∨ (trim line).head? = some hash) := by
    rw [hhead]
    rintro (hnil | hb | hb)
    · rw [hnil] at hhead
      cases hhead
    · exact hsemicolon (Option.some.inj hb)
    · exact hhash (Option.some.inj hb)
  have hheader : ¬ ((trim line).head? = some openBracket
      ∧ (trim line).getLast? = some closeBracket) := by
    rw [hhead]
    exact fun hb => hbracket (Option.some.inj hb.1)
  have hkey : ∀ c ∈ k.str ++ pad.val, decide (c = equals) = false := by
    intro c hc
    refine decide_eq_false fun heq => ?_
    rcases List.mem_append.mp hc with hmem | hmem
    · exact k.noEquals (heq ▸ hmem)
    · exact absurd (heq ▸ (pad.property c hmem).2) (by decide)
  have hfind : find (trim line) equals = some (k.str ++ pad.val).length := by
    rw [h, ← List.append_assoc]
    exact findIdx?_append_cons hkey (decide_eq_true rfl)
  have hk : trim (substr (trim line) 0 (k.str ++ pad.val).length) = k.str := by
    rw [h, ← List.append_assoc, substr, List.drop_zero, List.take_left]
    exact trim_pad forall_mem_nil (Line.blank_of_mem_pad pad) k.noOuterBlanks
  have hv : (trim line).drop ((k.str ++ pad.val).length + 1) = tail := by
    rw [h, ← List.append_assoc, ← List.drop_drop, List.drop_left, List.drop_one, List.tail_cons]
  unfold scanLine
  simp only [if_neg hmark, if_neg hheader, hfind, hk, hv]

/-- What is left of an entry once its outer blanks are gone. -/
theorem noOuterBlanks_entry (k : Key) (pad : Pad) {tail : Bytes}
    (h : ∀ b ∈ (equals :: tail).getLast?, b ∉ blanks) :
    NoOuterBlanks (k.str ++ (pad.val ++ equals :: tail)) := by
  obtain ⟨b, str, hstr⟩ := List.exists_cons_of_ne_nil k.ne_nil
  refine ⟨fun c hc => ?_, fun c hc => ?_⟩
  · refine k.noOuterBlanks.1 c ?_
    rw [hstr] at hc ⊢
    exact hc
  · rw [← List.append_assoc, List.getLast?_append_cons] at hc
    exact h c hc

theorem scanLine_entry (left : Pad) (k : Key) (beforeEquals afterEquals : Pad) (value : Value)
    (right : Pad) :
    scanLine sectionName key currentSection
        (Line.entry left k beforeEquals afterEquals value right).bytes
      = if currentSection = sectionName ∧ k.str = key then .error value.str
        else .ok currentSection := by
  have hleft := Line.blank_of_mem_pad left
  have hright := Line.blank_of_mem_pad right
  have hafter := Line.blank_of_mem_pad afterEquals
  by_cases hempty : value.str = []
  · -- The blanks behind the equals sign are outer ones, too.
    have hall : ∀ b ∈ afterEquals.val ++ right.val, b ∈ blanks := fun b hb =>
      (List.mem_append.mp hb).elim (hafter b) (hright b)
    have hcore : NoOuterBlanks (k.str ++ (beforeEquals.val ++ [equals])) :=
      noOuterBlanks_entry k beforeEquals fun b hb => by
        rw [← Option.some.inj hb]
        decide
    have hpad := trim_pad hleft hall hcore
    have hbytes : (Line.entry left k beforeEquals afterEquals value right).bytes
        = left.val ++ (k.str ++ (beforeEquals.val ++ [equals]))
          ++ (afterEquals.val ++ right.val) := by
      rw [Line.bytes, hempty]
      simp only [List.append_assoc, List.cons_append, List.nil_append]
    rw [scanLine_of_trim _ _ _ (hbytes ▸ hpad), hempty]
    rfl
  · have hlast : ∀ b ∈ (equals :: (afterEquals.val ++ value.str)).getLast?, b ∉ blanks := by
      intro b hb
      rw [← List.cons_append, List.getLast?_append_of_ne_nil _ hempty] at hb
      exact value.noOuterBlanks.2 b hb
    have hpad := trim_pad hleft hright (noOuterBlanks_entry k beforeEquals hlast)
    have hbytes : (Line.entry left k beforeEquals afterEquals value right).bytes
        = left.val ++ (k.str ++ (beforeEquals.val ++ equals :: (afterEquals.val ++ value.str)))
          ++ right.val := by
      rw [Line.bytes]
      simp only [List.append_assoc, List.cons_append]
    have hvalue := trim_pad hafter forall_mem_nil value.noOuterBlanks
    rw [List.append_nil] at hvalue
    rw [scanLine_of_trim _ _ _ (hbytes ▸ hpad), hvalue]

end

/-! ## Which line is found -/

/-- The section that the nearest header before opens; without one, the empty name. -/
def sectionAfter (before : List Line) : Bytes :=
  (before.filterMap Line.header?).getLast?.getD []

/-- Behind the lines `before`, the document sets the key, in the section. -/
def SetsAt (doc : List Line) (sectionName key : Bytes) (before : List Line) (value : Bytes) :
    Prop :=
  ∃ line after, doc = before ++ line :: after ∧ line.entry? = some (key, value)
    ∧ sectionAfter before = sectionName

/-- What the lookup is for: the value that is set first, and none if none is. -/
def Finds (doc : List Line) (sectionName key result : Bytes) : Prop :=
  (∃ before, SetsAt doc sectionName key before result
      ∧ ∀ earlier value, SetsAt doc sectionName key earlier value →
        before.length ≤ earlier.length)
    ∨ ((∀ before value, ¬ SetsAt doc sectionName key before value) ∧ result = [])

/-- The first place is one place, and it sets one value. -/
theorem Finds.unique {doc : List Line} {sectionName key value value' : Bytes}
    (h : Finds doc sectionName key value) (h' : Finds doc sectionName key value') :
    value = value' := by
  rcases h with ⟨before, hsets, hfirst⟩ | ⟨hnone, rfl⟩
  · rcases h' with ⟨before', hsets', hfirst'⟩ | ⟨hnone', _⟩
    · have hlen : before.length = before'.length :=
        Nat.le_antisymm (hfirst before' value' hsets') (hfirst' before value hsets)
      obtain ⟨line, after, hdoc, hentry, _⟩ := hsets
      obtain ⟨line', after', hdoc', hentry', _⟩ := hsets'
      obtain ⟨_, htail⟩ := List.append_inj (hdoc.symm.trans hdoc') hlen
      obtain ⟨rfl, _⟩ := List.cons.inj htail
      exact congrArg Prod.snd (Option.some.inj (hentry.symm.trans hentry'))
    · exact absurd hsets (hnone' before value)
  · rcases h' with ⟨before', hsets', _⟩ | ⟨_, rfl⟩
    · exact absurd hsets' (hnone before' value')
    · rfl

theorem sectionAfter_concat (before : List Line) (line : Line) :
    sectionAfter (before ++ [line]) = line.header?.getD (sectionAfter before) := by
  unfold sectionAfter
  rw [List.filterMap_append]
  cases h : line.header? with
  | none =>
    rw [List.filterMap_cons_none h, List.filterMap_nil, List.append_nil]
    rfl
  | some name =>
    rw [List.filterMap_cons_some h, List.filterMap_nil, List.getLast?_concat]
    rfl

section

variable {sectionName key currentSection : Bytes} {line : Line}

theorem scanLine_of_sets {value : Bytes} (h : line.entry? = some (key, value)) :
    scanLine sectionName key sectionName line.bytes = .error value := by
  cases line with
  | blank pad => cases h
  | comment pad mark rest => cases h
  | header left name right => cases h
  | entry left k beforeEquals afterEquals value' right =>
    obtain ⟨hk, hv⟩ := Prod.mk.inj (Option.some.inj h)
    rw [scanLine_entry, if_pos ⟨rfl, hk⟩, hv]

theorem scanLine_of_not_sets
    (h : ¬ (currentSection = sectionName ∧ ∃ value, line.entry? = some (key, value))) :
    scanLine sectionName key currentSection line.bytes
      = .ok (line.header?.getD currentSection) := by
  cases line with
  | blank pad => exact scanLine_blank ..
  | comment pad mark rest => exact scanLine_comment ..
  | header left name right => exact scanLine_header ..
  | entry left k beforeEquals afterEquals value right =>
    rw [scanLine_entry]
    refine if_neg fun hsets => h ⟨hsets.1, value.str, ?_⟩
    rw [← hsets.2]
    rfl

end

section

variable {sectionName key : Bytes}

/-- The lines before `rest` have been read, and none of them has set the key. -/
theorem scanLines_finds (done rest : List Line)
    (h : ∀ before value, SetsAt (done ++ rest) sectionName key before value →
      done.length ≤ before.length) :
    Finds (done ++ rest) sectionName key
      (scanLines sectionName key (sectionAfter done) (rest.map Line.bytes)) := by
  induction rest generalizing done with
  | nil =>
    refine Or.inr ⟨fun before value hsets => ?_, rfl⟩
    have hle := h before value hsets
    obtain ⟨line, after, hdoc, _⟩ := hsets
    have hlen := congrArg List.length hdoc
    simp only [List.length_append, List.length_cons, List.length_nil] at hlen
    omega
  | cons line rest ih =>
    rw [List.map_cons, scanLines]
    by_cases hsets : sectionAfter done = sectionName ∧ ∃ value, line.entry? = some (key, value)
    · obtain ⟨hsection, value, hentry⟩ := hsets
      rw [hsection, scanLine_of_sets hentry]
      exact Or.inl ⟨done, ⟨line, rest, rfl, hentry, hsection⟩, h⟩
    · rw [scanLine_of_not_sets hsets]
      have hrest := ih (done ++ [line]) fun before value hlater => ?_
      · rw [sectionAfter_concat, List.append_assoc, List.singleton_append] at hrest
        exact hrest
      · rw [List.append_assoc, List.singleton_append] at hlater
        have hle := h before value hlater
        obtain ⟨line', after, hdoc, hentry, hsection⟩ := hlater
        -- A place as early as this line would be this line.
        have hne : done.length ≠ before.length := fun hlen => by
          obtain ⟨rfl, htail⟩ := List.append_inj hdoc hlen
          obtain ⟨rfl, _⟩ := List.cons.inj htail
          exact hsets ⟨hsection, value, hentry⟩
        rw [List.length_append, List.length_singleton]
        omega

/-- An empty line at the end makes no difference. -/
theorem scanLines_concat_nil (currentSection : Bytes) (lines : List Bytes) :
    scanLines sectionName key currentSection (lines ++ [[]])
      = scanLines sectionName key currentSection lines := by
  induction lines generalizing currentSection with
  | nil => rfl
  | cons line lines ih =>
    rw [List.cons_append, scanLines, scanLines]
    cases scanLine sectionName key currentSection line with
    | error v => rfl
    | ok currentSection => exact ih currentSection

theorem scanLines_dropEmpty (currentSection : Bytes) (lines : List Bytes) :
    scanLines sectionName key currentSection (dropEmpty lines)
      = scanLines sectionName key currentSection lines := by
  unfold dropEmpty
  by_cases h : lines.getLast? = some []
  · rw [if_pos h, ← scanLines_concat_nil, List.dropLast_append_getLast? [] h]
  · rw [if_neg h]

theorem getConfigValue_eq (doc : List Line) (final : Bool) :
    getConfigValue (some (text doc final)) sectionName key
      = scanLines sectionName key [] (doc.map Line.bytes) := by
  have hall : ∀ line ∈ doc.map Line.bytes, lineFeed ∉ line := by
    intro line hline
    obtain ⟨l, _, rfl⟩ := List.mem_map.mp hline
    exact l.lineFeed_notMem_bytes
  show scan sectionName key [] (text doc final) = _
  rw [scan_eq, text]
  by_cases hne : doc.map Line.bytes = []
  · rw [hne]
    cases final with
    | false => rfl
    | true => exact scanLines_concat_nil [] []
  · cases final with
    | false =>
      rw [if_neg Bool.false_ne_true, List.append_nil, lines_intercalate hall hne,
        scanLines_dropEmpty]
    | true => rw [if_pos rfl, lines_intercalate_append hall hne]

end

/-- **The lookup finds the first line of the section that sets the key.** Whatever lines
the file is made of, in whatever order, and whatever blanks are around their parts, the
result is the value of the first entry with the key whose nearest header before is that
of the section; if there is none, it is empty. -/
theorem getConfigValue_finds (doc : List Line) (final : Bool) (sectionName key : Bytes) :
    Finds doc sectionName key (getConfigValue (some (text doc final)) sectionName key) := by
  rw [getConfigValue_eq]
  exact scanLines_finds [] doc fun _ _ _ => Nat.zero_le _

end QQChat.Server.Config
