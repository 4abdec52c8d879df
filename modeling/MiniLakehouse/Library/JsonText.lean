import Mathlib
import MiniLakehouse.Library.Keyed

/-!
# JSON text

A serialiser prints a value with one white space convention, a `JsonStyle`: none
at all, or one line for every member with the indentation of its depth.  The
parser takes any white space.  `loads_dumps` is the round trip, in every style.

A string is Unicode text, so a text with an escaped lone surrogate is refused.  A
floating-point number is kept as the text that the serialiser prints of it;
`floatRepr` is that text, computed from the digits that the parser has read.
-/

namespace MiniLakehouse

/-! ## Text and bytes -/

abbrev Bytes := List UInt8

/-- `str.encode("utf-8")` -/
def utf8 (text : String) : Bytes := text.toList.flatMap String.utf8EncodeChar

/-- `bytes.decode("utf-8")` -/
def utf8Decode (bytes : Bytes) : Option String := String.fromUTF8? bytes.toByteArray

theorem toByteArray_utf8 (text : String) : (utf8 text).toByteArray = text.toByteArray :=
  String.utf8Encode_toList

@[simp] theorem utf8Decode_utf8 (text : String) : utf8Decode (utf8 text) = some text := by
  rw [utf8Decode, toByteArray_utf8, String.fromUTF8?, dif_pos text.isValidUTF8]
  rfl

theorem utf8_injective : Function.Injective utf8 := by
  intro left right h
  have hsome := congrArg utf8Decode h
  simpa using hsome

@[simp] theorem utf8_append (left right : String) : utf8 (left ++ right) = utf8 left ++ utf8 right := by
  simp [utf8]

/-- Only a line feed is encoded with the byte of a line feed: the bytes of a longer encoding
are 128 at least. -/
theorem lineFeed_of_mem_utf8EncodeChar {c : Char} (h : 10 ∈ String.utf8EncodeChar c) : c = '\n' := by
  have hbyte : ∀ n < 256, (10 : UInt8) = UInt8.ofNat n → n = 10 := by
    intro n hn heq
    have htoNat := congrArg UInt8.toNat heq
    simp only [UInt8.reduceToNat, UInt8.toNat_ofNat'] at htoNat
    omega
  simp only [String.utf8EncodeChar] at h
  split at h
  · have hval := hbyte c.val.toNat (by omega) (List.mem_singleton.mp h)
    exact Char.ext (UInt32.toNat_inj.mp hval)
  · split at h
    · simp only [List.mem_cons, List.not_mem_nil, or_false] at h
      rcases h with h | h <;> have := hbyte _ (by omega) h <;> omega
    · split at h <;> simp only [List.mem_cons, List.not_mem_nil, or_false] at h
      · rcases h with h | h | h <;> have := hbyte _ (by omega) h <;> omega
      · rcases h with h | h | h | h <;> have := hbyte _ (by omega) h <;> omega

theorem lineFeed_of_mem_utf8 {text : String} (h : 10 ∈ utf8 text) : '\n' ∈ text.toList := by
  obtain ⟨c, hc, hbyte⟩ := List.mem_flatMap.mp h
  exact lineFeed_of_mem_utf8EncodeChar hbyte ▸ hc

/-! ## Values -/

/-- What `json.loads` builds, an object with its members in the order of insertion. -/
inductive JsonValue where
  | null
  | bool (value : Bool)
  | int (value : Int)
  | float (repr : String)
  | str (value : String)
  | arr (items : List JsonValue)
  | obj (members : List (String × JsonValue))

/-- `isinstance(value, dict)` -/
def JsonValue.isObject : JsonValue → Bool
  | .obj _ => true
  | _ => false

/-- What a serialiser puts before an item at a depth, and after a colon. -/
structure JsonStyle where
  newline : Nat → List Char
  afterColon : List Char

/-- `separators=(",", ":")` -/
def JsonStyle.compact : JsonStyle := ⟨fun _ => [], []⟩

/-- `indent=2` -/
def JsonStyle.indented : JsonStyle := ⟨fun depth => '\n' :: List.replicate (2 * depth) ' ', [' ']⟩

/-! ## Writing -/

/-- The escapes of `ensure_ascii=False`. -/
def escapeChar (c : Char) : List Char :=
  if c = '"' then ['\\', '"']
  else if c = '\\' then ['\\', '\\']
  else if c = '\n' then ['\\', 'n']
  else if c = '\r' then ['\\', 'r']
  else if c = '\t' then ['\\', 't']
  else if c = '\x08' then ['\\', 'b']
  else if c = '\x0c' then ['\\', 'f']
  else if c.toNat < 32 then
    ['\\', 'u', '0', '0', Nat.digitChar (c.toNat / 16), Nat.digitChar (c.toNat % 16)]
  else [c]

def writeString (text : String) : List Char :=
  '"' :: (text.toList.flatMap escapeChar ++ ['"'])

def writeInt (value : Int) : List Char :=
  if value < 0 then '-' :: Nat.toDigits 10 value.natAbs else Nat.toDigits 10 value.natAbs

mutual

def JsonValue.write (style : JsonStyle) (depth : Nat) : JsonValue → List Char
  | .null => ['n', 'u', 'l', 'l']
  | .bool true => ['t', 'r', 'u', 'e']
  | .bool false => ['f', 'a', 'l', 's', 'e']
  | .int value => writeInt value
  | .float repr => repr.toList
  | .str value => writeString value
  | .arr [] => ['[', ']']
  | .arr (item :: items) =>
      '[' :: (style.newline (depth + 1) ++ (item.write style (depth + 1) ++ writeItems style depth items))
  | .obj [] => ['{', '}']
  | .obj ((name, value) :: members) =>
      '{' :: (style.newline (depth + 1) ++ (writeString name ++ ':' :: (style.afterColon ++
        (value.write style (depth + 1) ++ writeMembers style depth members))))

/-- The items after the first one, and the end of the array. -/
def writeItems (style : JsonStyle) (depth : Nat) : List JsonValue → List Char
  | [] => style.newline depth ++ [']']
  | item :: items =>
      ',' :: (style.newline (depth + 1) ++ (item.write style (depth + 1) ++ writeItems style depth items))

/-- The members after the first one, and the end of the object. -/
def writeMembers (style : JsonStyle) (depth : Nat) : List (String × JsonValue) → List Char
  | [] => style.newline depth ++ ['}']
  | (name, value) :: members =>
      ',' :: (style.newline (depth + 1) ++ (writeString name ++ ':' :: (style.afterColon ++
        (value.write style (depth + 1) ++ writeMembers style depth members))))

end

def JsonValue.dumps (style : JsonStyle) (value : JsonValue) : String :=
  String.ofList (value.write style 0)

/-! ## Reading -/

def isJsonSpace (c : Char) : Bool := c == ' ' || c == '\t' || c == '\n' || c == '\r'

def skipSpace (text : List Char) : List Char := text.dropWhile isJsonSpace

def hexValue (c : Char) : Option Nat :=
  if '0' ≤ c ∧ c ≤ '9' then some (c.toNat - 48)
  else if 'a' ≤ c ∧ c ≤ 'f' then some (c.toNat - 87)
  else if 'A' ≤ c ∧ c ≤ 'F' then some (c.toNat - 55)
  else none

/-- Four hexadecimal digits. -/
def readHex (text : List Char) : Option (Nat × List Char) :=
  if text.length < 4 then none
  else ((text.take 4).mapM hexValue).map fun digits =>
    (digits.foldl (fun value digit => 16 * value + digit) 0, text.drop 4)

/-- What follows a backslash.  Two surrogates make one character. -/
def readEscape : List Char → Option (Char × List Char)
  | [] => none
  | c :: rest =>
      if c = '"' ∨ c = '\\' ∨ c = '/' then some (c, rest)
      else if c = 'n' then some ('\n', rest)
      else if c = 'r' then some ('\r', rest)
      else if c = 't' then some ('\t', rest)
      else if c = 'b' then some ('\x08', rest)
      else if c = 'f' then some ('\x0c', rest)
      else if c = 'u' then
        (readHex rest).bind fun high =>
          if high.1 < 0xD800 ∨ 0xE000 ≤ high.1 then some (Char.ofNat high.1, high.2)
          else if high.2.take 2 = ['\\', 'u'] then
            (readHex (high.2.drop 2)).bind fun low =>
              if high.1 < 0xDC00 ∧ 0xDC00 ≤ low.1 ∧ low.1 < 0xE000 then
                some (Char.ofNat (0x10000 + (high.1 - 0xD800) * 0x400 + (low.1 - 0xDC00)), low.2)
              else none
          else none
      else none

/-- The rest of a string, after its opening quote. -/
def readString : Nat → List Char → Option (List Char × List Char)
  | 0, _ => none
  | _ + 1, [] => none
  | fuel + 1, c :: rest =>
      if c = '"' then some ([], rest)
      else if c = '\\' then
        (readEscape rest).bind fun escaped =>
          (readString fuel escaped.2).map fun tail => (escaped.1 :: tail.1, tail.2)
      else if c.toNat < 32 then none
      else (readString fuel rest).map fun tail => (c :: tail.1, tail.2)

/-- The characters of a number, of `NaN` and of `Infinity`. -/
def isNumberChar (c : Char) : Bool :=
  c.isDigit || ['+', '-', '.', 'e', 'E', 'N', 'a', 'I', 'n', 'f', 'i', 't', 'y'].contains c

/-- `0|[1-9][0-9]*` -/
def isNaturalText (text : List Char) : Bool :=
  text == ['0'] || (!text.isEmpty && text.head? != some '0' && text.all Char.isDigit)

def unsigned (text : List Char) : List Char :=
  if text.head? = some '-' then text.drop 1 else text

/-- `([eE][-+]?[0-9]+)?` -/
def isExponentText : List Char → Bool
  | [] => true
  | e :: rest =>
      let digits := if rest.head? = some '+' ∨ rest.head? = some '-' then rest.drop 1 else rest
      (e == 'e' || e == 'E') && !digits.isEmpty && digits.all Char.isDigit

/-- `(\.[0-9]+)?` and an exponent -/
def isFractionText (text : List Char) : Bool :=
  if text.head? = some '.' then
    let digits := (text.drop 1).takeWhile Char.isDigit
    !digits.isEmpty && isExponentText ((text.drop 1).dropWhile Char.isDigit)
  else isExponentText text

def isFloatText (text : List Char) : Bool :=
  text == "NaN".toList || text == "Infinity".toList || text == "-Infinity".toList ||
    (isNaturalText ((unsigned text).takeWhile Char.isDigit) &&
      !((unsigned text).dropWhile Char.isDigit).isEmpty &&
      isFractionText ((unsigned text).dropWhile Char.isDigit))

def intOf (text : List Char) : Int :=
  if text.head? = some '-' then -(Nat.ofDigitChars 10 (text.drop 1) 0 : Int)
  else (Nat.ofDigitChars 10 text 0 : Int)

section Reader

variable (floatRepr : String → String)

def numberOf (text : List Char) : Option JsonValue :=
  if isNaturalText (unsigned text) then some (.int (intOf text))
  else if isFloatText text then some (.float (floatRepr (String.ofList text)))
  else none

/-- A literal name or a number. -/
def readScalar (text : List Char) : Option (JsonValue × List Char) :=
  if "null".toList.isPrefixOf text then some (.null, text.drop 4)
  else if "true".toList.isPrefixOf text then some (.bool true, text.drop 4)
  else if "false".toList.isPrefixOf text then some (.bool false, text.drop 5)
  else (numberOf floatRepr (text.takeWhile isNumberChar)).map fun value =>
    (value, text.dropWhile isNumberChar)

/-- Assignment to a member: the last value of a name stays, in the place of the first. -/
def setMember (members : List (String × JsonValue)) (member : String × JsonValue) :
    List (String × JsonValue) :=
  if members.any (·.1 == member.1) then
    members.map fun old => if old.1 == member.1 then member else old
  else members ++ [member]

mutual

def readValue : Nat → List Char → Option (JsonValue × List Char)
  | 0, _ => none
  | fuel + 1, text =>
      let text := skipSpace text
      if text.head? = some '"' then
        (readString fuel (text.drop 1)).map fun p => (.str (String.ofList p.1), p.2)
      else if text.head? = some '[' then
        let text := skipSpace (text.drop 1)
        if text.head? = some ']' then some (.arr [], text.drop 1)
        else (readItems fuel text).map fun p => (.arr p.1, p.2)
      else if text.head? = some '\x7b' then
        let text := skipSpace (text.drop 1)
        if text.head? = some '\x7d' then some (.obj [], text.drop 1)
        else (readMembers fuel text).map fun p => (.obj (p.1.foldl setMember []), p.2)
      else readScalar floatRepr text

def readItems : Nat → List Char → Option (List JsonValue × List Char)
  | 0, _ => none
  | fuel + 1, text =>
      (readValue fuel text).bind fun item =>
        let text := skipSpace item.2
        if text.head? = some ']' then some ([item.1], text.drop 1)
        else if text.head? = some ',' then
          (readItems fuel (text.drop 1)).map fun items => (item.1 :: items.1, items.2)
        else none

def readMembers : Nat → List Char → Option (List (String × JsonValue) × List Char)
  | 0, _ => none
  | fuel + 1, text =>
      let text := skipSpace text
      if text.head? = some '"' then
        (readString fuel (text.drop 1)).bind fun name =>
          let text := skipSpace name.2
          if text.head? = some ':' then
            (readValue fuel (text.drop 1)).bind fun value =>
              let text := skipSpace value.2
              let member := (String.ofList name.1, value.1)
              if text.head? = some '\x7d' then some ([member], text.drop 1)
              else if text.head? = some ',' then
                (readMembers fuel (text.drop 1)).map fun members =>
                  (member :: members.1, members.2)
              else none
          else none
      else none

end

/-- `json.loads` -/
def loads (text : String) : Option JsonValue :=
  (readValue floatRepr (text.toList.length + 1) text.toList).bind fun p =>
    if skipSpace p.2 = [] then some p.1 else none

/-! ## Round trip -/

@[simp] theorem skipSpace_space {c : Char} {text : List Char} (h : isJsonSpace c = true) :
    skipSpace (c :: text) = skipSpace text := by
  simp [skipSpace, h]

theorem skipSpace_append {blank : List Char} (text : List Char)
    (h : ∀ c ∈ blank, isJsonSpace c = true) :
    skipSpace (blank ++ text) = skipSpace text := by
  induction blank with
  | nil => rfl
  | cons c blank ih =>
      rw [List.cons_append, skipSpace_space (h c (by simp))]
      exact ih fun other hother => h other (by simp [hother])

theorem skipSpace_of_head {c : Char} {text : List Char} (h : isJsonSpace c = false) :
    skipSpace (c :: text) = c :: text := by
  simp [skipSpace, h]

/-! ### Strings -/

theorem hexValue_digitChar : ∀ n < 16, hexValue (Nat.digitChar n) = some n := by decide

/-- What is written of a character is read as the character. -/
theorem readEscape_of_control {c : Char} {text : List Char} (h : c.toNat < 32) :
    readEscape ('u' :: '0' :: '0' :: Nat.digitChar (c.toNat / 16) ::
      Nat.digitChar (c.toNat % 16) :: text) = some (c, text) := by
  have hhigh := hexValue_digitChar (c.toNat / 16) (by omega)
  have hlow := hexValue_digitChar (c.toNat % 16) (by omega)
  have hzero : hexValue '0' = some 0 := by decide
  have hvalue : 16 * (c.toNat / 16) + c.toNat % 16 = c.toNat := by omega
  have hhex : readHex ('0' :: '0' :: Nat.digitChar (c.toNat / 16) ::
      Nat.digitChar (c.toNat % 16) :: text) = some (c.toNat, text) := by
    simp [readHex, hhigh, hlow, hzero, hvalue]
  have hsmall : c.toNat < 0xD800 := by omega
  simp [readEscape, hhex, hsmall]

theorem readString_escapeChar {c : Char} {fuel : Nat} {text : List Char} :
    readString (fuel + 1) (escapeChar c ++ text) =
      (readString fuel text).map fun tail => (c :: tail.1, tail.2) := by
  unfold escapeChar
  split
  · next h => subst h; simp [readString, readEscape]
  split
  · next h => subst h; simp [readString, readEscape]
  split
  · next h => subst h; simp [readString, readEscape]
  split
  · next h => subst h; simp [readString, readEscape]
  split
  · next h => subst h; simp [readString, readEscape]
  split
  · next h => subst h; simp [readString, readEscape]
  split
  · next h => subst h; simp [readString, readEscape]
  split
  · next hcontrol =>
      simp [readString, readEscape_of_control hcontrol]
  · next hquote hslash _ _ _ _ _ hcontrol =>
      simp [readString, hquote, hslash, hcontrol]

theorem readString_write (chars text : List Char) {fuel : Nat} (h : chars.length < fuel) :
    readString fuel (chars.flatMap escapeChar ++ '"' :: text) = some (chars, text) := by
  induction chars generalizing fuel with
  | nil =>
      obtain ⟨fuel, rfl⟩ : ∃ n, fuel = n + 1 := ⟨fuel - 1, by omega⟩
      simp [readString]
  | cons c chars ih =>
      rw [List.length_cons] at h
      obtain ⟨fuel, rfl⟩ : ∃ n, fuel = n + 1 := ⟨fuel - 1, by omega⟩
      rw [List.flatMap_cons, List.append_assoc, readString_escapeChar, ih (by omega)]
      rfl

/-! ### Numbers -/

/-- The text after a value does not continue a number. -/
def EndsNumber (text : List Char) : Prop := ∀ c ∈ text.head?, isNumberChar c = false

theorem takeWhile_number {digits text : List Char} (hdigits : ∀ c ∈ digits, isNumberChar c = true)
    (htext : EndsNumber text) :
    (digits ++ text).takeWhile isNumberChar = digits ∧
      (digits ++ text).dropWhile isNumberChar = text := by
  induction digits with
  | nil =>
      cases text with
      | nil => exact ⟨rfl, rfl⟩
      | cons c text =>
          have hc := htext c rfl
          simp [hc]
  | cons c digits ih =>
      have hc := hdigits c (by simp)
      obtain ⟨htake, hdrop⟩ := ih fun other hother => hdigits other (by simp [hother])
      simp [hc, htake, hdrop]

theorem toDigits_head_ne {n : Nat} {c : Char} (hc : c.isDigit = false) :
    (Nat.toDigits 10 n).head? ≠ some c := by
  intro hhead
  have hmem := List.mem_of_mem_head? hhead
  have hdigit := Nat.isDigit_of_mem_toDigits (by decide) (by decide) hmem
  rw [hc] at hdigit
  cases hdigit

/-- The digits of a positive number do not begin with a zero. -/
theorem toDigits_head_zero {n : Nat} (hn : 0 < n) : (Nat.toDigits 10 n).head? ≠ some '0' := by
  induction n using Nat.strongRecOn with
  | ind n ih =>
      by_cases hsmall : n < 10
      · rw [Nat.toDigits_of_lt_base hsmall]
        intro hhead
        have hzero : n = 0 := by
          have hall : ∀ m < 10, Nat.digitChar m = '0' → m = 0 := by decide
          exact hall n hsmall (Option.some.inj hhead)
        omega
      · rw [Nat.toDigits_of_base_le (by decide) (by omega)]
        intro hhead
        have hne : Nat.toDigits 10 (n / 10) ≠ [] := Nat.toDigits_ne_nil
        rw [List.head?_append_of_ne_nil _ hne] at hhead
        exact ih (n / 10) (by omega) (by omega) hhead

theorem isNaturalText_toDigits (n : Nat) : isNaturalText (Nat.toDigits 10 n) = true := by
  by_cases hn : n = 0
  · subst hn
    decide
  · have hhead := toDigits_head_zero (Nat.pos_of_ne_zero hn)
    have hne : Nat.toDigits 10 n ≠ [] := Nat.toDigits_ne_nil
    have hall : ∀ c ∈ Nat.toDigits 10 n, c.isDigit = true := by
      intro c hc
      exact Nat.isDigit_of_mem_toDigits (by decide) (by decide) hc
    simp only [isNaturalText, bne_iff_ne, ne_eq, hhead, not_false_eq_true, Bool.or_eq_true,
      Bool.and_eq_true, Bool.not_eq_true', List.isEmpty_eq_false_iff, hne, List.all_eq_true, true_and]
    exact .inr hall

theorem numberOf_writeInt {value : Int} : numberOf floatRepr (writeInt value) = some (.int value) := by
  have hminus : (Nat.toDigits 10 value.natAbs).head? ≠ some '-' := toDigits_head_ne (by decide)
  unfold writeInt
  by_cases hneg : value < 0
  · have habs : -(value.natAbs : Int) = value := by omega
    rw [if_pos hneg]
    simp only [numberOf, unsigned, intOf, List.head?_cons, List.drop_succ_cons, List.drop_zero,
      if_true, isNaturalText_toDigits, Nat.ofDigitChars_ten_toDigits, habs]
  · have habs : (value.natAbs : Int) = value := by omega
    rw [if_neg hneg]
    simp only [numberOf, unsigned, intOf, hminus, if_false, if_true, isNaturalText_toDigits,
      Nat.ofDigitChars_ten_toDigits, habs]

theorem writeInt_chars {value : Int} {c : Char} (h : c ∈ writeInt value) : c = '-' ∨ c.isDigit = true := by
  have hdigits : ∀ c ∈ Nat.toDigits 10 value.natAbs, c.isDigit = true := by
    intro c hc
    exact Nat.isDigit_of_mem_toDigits (by decide) (by decide) hc
  unfold writeInt at h
  split at h
  · rcases List.mem_cons.mp h with h | h
    · exact .inl h
    · exact .inr (hdigits c h)
  · exact .inr (hdigits c h)

/-! ### Values -/

mutual

/-- The values that Python holds: the names of an object differ, and a float is written as the
number that it is read as. -/
def JsonValue.WellFormed : JsonValue → Prop
  | .float repr => numberOf floatRepr repr.toList = some (.float repr) ∧
      ∀ c ∈ repr.toList, isNumberChar c = true
  | .arr items => ItemsWellFormed items
  | .obj members => (members.map Prod.fst).Nodup ∧ MembersWellFormed members
  | _ => True

def ItemsWellFormed : List JsonValue → Prop
  | [] => True
  | item :: items => item.WellFormed ∧ ItemsWellFormed items

def MembersWellFormed : List (String × JsonValue) → Prop
  | [] => True
  | (_, value) :: members => value.WellFormed ∧ MembersWellFormed members

end

theorem foldl_setMember {earlier members : List (String × JsonValue)}
    (h : ((earlier ++ members).map Prod.fst).Nodup) :
    members.foldl setMember earlier = earlier ++ members := by
  induction members generalizing earlier with
  | nil => simp
  | cons member members ih =>
      have hfresh : earlier.any (·.1 == member.1) = false := by
        rw [List.map_append, List.nodup_append] at h
        rw [List.any_eq_false]
        intro old hold hsame
        exact h.2.2 old.1 (List.mem_map_of_mem hold) member.1 (by simp) (by simpa using hsame)
      rw [List.foldl_cons, setMember, hfresh, if_neg (by simp)]
      rw [ih (by simpa using h), List.append_assoc, List.singleton_append]

/-- White space is all that a style adds. -/
structure JsonStyle.Blank (style : JsonStyle) : Prop where
  newline : ∀ depth, ∀ c ∈ style.newline depth, isJsonSpace c = true
  afterColon : ∀ c ∈ style.afterColon, isJsonSpace c = true

omit floatRepr in
theorem compact_blank : JsonStyle.compact.Blank :=
  ⟨fun _ _ hc => absurd hc List.not_mem_nil, fun _ hc => absurd hc List.not_mem_nil⟩

omit floatRepr in
theorem indented_blank : JsonStyle.indented.Blank := by
  constructor
  · intro depth c hc
    rcases List.mem_cons.mp hc with rfl | hc
    · rfl
    · rw [List.eq_of_mem_replicate hc]
      rfl
  · intro c hc
    rw [List.mem_singleton.mp hc]
    rfl

variable {floatRepr} {style : JsonStyle}

omit floatRepr in
theorem not_space_of_number {c : Char} (h : isNumberChar c = true) :
    isJsonSpace c = false ∧ c ≠ ']' ∧ c ≠ '\x7d' := by
  refine ⟨?_, ?_, ?_⟩
  · by_contra hspace
    simp only [isJsonSpace, Bool.not_eq_false, Bool.or_eq_true, beq_iff_eq] at hspace
    rcases hspace with ((rfl | rfl) | rfl) | rfl <;> revert h <;> decide
  · rintro rfl
    revert h
    decide
  · rintro rfl
    revert h
    decide

/-- How the text of a value begins. -/
theorem write_head (style : JsonStyle) {value : JsonValue} (h : value.WellFormed floatRepr)
    (depth : Nat) :
    ∃ c text, value.write style depth = c :: text ∧ isJsonSpace c = false ∧ c ≠ ']' := by
  cases value with
  | null => exact ⟨_, _, rfl, rfl, by decide⟩
  | bool b => cases b <;> exact ⟨_, _, rfl, rfl, by decide⟩
  | int value =>
      have hne : writeInt value ≠ [] := by
        unfold writeInt
        split
        · exact List.cons_ne_nil _ _
        · exact Nat.toDigits_ne_nil
      obtain ⟨c, text, htext⟩ := List.exists_cons_of_ne_nil hne
      have hc : c = '-' ∨ c.isDigit = true := writeInt_chars (htext ▸ List.mem_cons_self)
      have hnumber : isNumberChar c = true := by
        rcases hc with rfl | hdigit
        · decide
        · simp [isNumberChar, hdigit]
      exact ⟨c, text, htext, (not_space_of_number hnumber).1, (not_space_of_number hnumber).2.1⟩
  | float repr =>
      obtain ⟨hnumber, hchars⟩ := h
      have hne : repr.toList ≠ [] := by
        intro hnil
        rw [hnil] at hnumber
        cases hnumber
      obtain ⟨c, text, htext⟩ := List.exists_cons_of_ne_nil hne
      have hc := not_space_of_number (hchars c (htext ▸ List.mem_cons_self))
      exact ⟨c, text, htext, hc.1, hc.2.1⟩
  | str value => exact ⟨_, _, rfl, rfl, by decide⟩
  | arr items => cases items <;> exact ⟨_, _, rfl, rfl, by decide⟩
  | obj members => cases members <;> exact ⟨_, _, rfl, rfl, by decide⟩

/-- A number does not begin as a literal name does. -/
theorem numberOf_head {chars : List Char} {value : JsonValue}
    (h : numberOf floatRepr chars = some value) :
    ∃ c rest, chars = c :: rest ∧ c ≠ 'n' ∧ c ≠ 't' ∧ c ≠ 'f' := by
  have hletter : ∀ c : Char, c.isDigit = false → c ≠ '-' → c ≠ 'N' → c ≠ 'I' → ∀ rest,
      numberOf floatRepr (c :: rest) = none := by
    intro c hdigit hminus hnan hinfinity rest
    have hzero : c ≠ '0' := by
      rintro rfl
      cases hdigit
    simp [numberOf, unsigned, hminus, hzero, isFloatText, hdigit, hnan, hinfinity, isNaturalText]
  cases chars with
  | nil => cases h
  | cons c rest =>
      refine ⟨c, rest, rfl, ?_, ?_, ?_⟩ <;> rintro rfl
      · rw [hletter 'n' (by decide) (by decide) (by decide) (by decide)] at h
        cases h
      · rw [hletter 't' (by decide) (by decide) (by decide) (by decide)] at h
        cases h
      · rw [hletter 'f' (by decide) (by decide) (by decide) (by decide)] at h
        cases h

theorem readScalar_number {chars text : List Char} {value : JsonValue}
    (h : numberOf floatRepr chars = some value) (hchars : ∀ c ∈ chars, isNumberChar c = true)
    (htext : EndsNumber text) : readScalar floatRepr (chars ++ text) = some (value, text) := by
  obtain ⟨htake, hdrop⟩ := takeWhile_number hchars htext
  obtain ⟨c, rest, rfl, hnull, htrue, hfalse⟩ := numberOf_head h
  unfold readScalar
  rw [htake, hdrop, h]
  simp [hnull.symm, htrue.symm, hfalse.symm]

theorem writeInt_numberChars {value : Int} : ∀ c ∈ writeInt value, isNumberChar c = true := by
  intro c hc
  rcases writeInt_chars hc with rfl | hdigit
  · decide
  · simp [isNumberChar, hdigit]

/-- A value that opens no container and no string is read as a scalar. -/
theorem readValue_scalar {fuel : Nat} {blank text rest : List Char} {value : JsonValue} {c : Char}
    (hblank : ∀ c ∈ blank, isJsonSpace c = true) (htext : text = c :: rest)
    (hspace : isJsonSpace c = false) (hquote : c ≠ '"') (hbracket : c ≠ '[') (hbrace : c ≠ '\x7b')
    {left : List Char} (h : readScalar floatRepr text = some (value, left)) :
    readValue floatRepr (fuel + 1) (blank ++ text) = some (value, left) := by
  subst htext
  rw [readValue, skipSpace_append _ hblank, skipSpace_of_head hspace]
  simp [hquote, hbracket, hbrace, h]

theorem readValue_number {fuel : Nat} {blank chars text : List Char} {value : JsonValue}
    (hblank : ∀ c ∈ blank, isJsonSpace c = true) (h : numberOf floatRepr chars = some value)
    (hchars : ∀ c ∈ chars, isNumberChar c = true) (htext : EndsNumber text) :
    readValue floatRepr (fuel + 1) (blank ++ (chars ++ text)) = some (value, text) := by
  have hscalar := readScalar_number h hchars htext
  obtain ⟨c, rest, rfl, -⟩ := numberOf_head h
  have hnumber := hchars c (by simp)
  have hopens : ∀ other, isNumberChar other = false → c ≠ other := by
    rintro other hother rfl
    rw [hother] at hnumber
    cases hnumber
  exact readValue_scalar hblank rfl (not_space_of_number hnumber).1 (hopens _ (by decide))
    (hopens _ (by decide)) (hopens _ (by decide)) hscalar

theorem endsNumber_newline {depth : Nat} (hstyle : style.Blank) {c : Char} {text : List Char}
    (hc : isNumberChar c = false) : EndsNumber (style.newline depth ++ c :: text) := by
  intro first hfirst
  cases hnewline : style.newline depth with
  | nil =>
      rw [hnewline] at hfirst
      exact Option.some.inj hfirst ▸ hc
  | cons blank blanks =>
      rw [hnewline] at hfirst
      obtain rfl := Option.some.inj hfirst
      have hspace := hstyle.newline depth blank (hnewline ▸ List.mem_cons_self)
      by_contra hnumber
      rw [(not_space_of_number (Bool.not_eq_false _ ▸ hnumber)).1] at hspace
      cases hspace

theorem endsNumber_items {depth : Nat} (hstyle : style.Blank) (items : List JsonValue)
    (text : List Char) : EndsNumber (writeItems style depth items ++ text) := by
  cases items with
  | nil =>
      rw [writeItems, List.append_assoc]
      exact endsNumber_newline hstyle rfl
  | cons item items =>
      intro c hc
      exact Option.some.inj hc ▸ rfl

theorem endsNumber_members {depth : Nat} (hstyle : style.Blank)
    (members : List (String × JsonValue)) (text : List Char) :
    EndsNumber (writeMembers style depth members ++ text) := by
  cases members with
  | nil =>
      rw [writeMembers, List.append_assoc]
      exact endsNumber_newline hstyle rfl
  | cons member members =>
      intro c hc
      exact Option.some.inj hc ▸ rfl

theorem length_flatMap_escapeChar (chars : List Char) :
    chars.length ≤ (chars.flatMap escapeChar).length := by
  induction chars with
  | nil => exact Nat.le_refl 0
  | cons c chars ih =>
      have hpos : 1 ≤ (escapeChar c).length := by
        unfold escapeChar
        repeat' split
        all_goals simp
      rw [List.flatMap_cons, List.length_append, List.length_cons]
      omega

mutual

/-- What is written of a value is read as the value: by structural induction, with fuel for
every character of the text. -/
theorem readValue_write (hstyle : style.Blank) : ∀ (value : JsonValue) (depth fuel : Nat)
    (blank text : List Char), value.WellFormed floatRepr → (∀ c ∈ blank, isJsonSpace c = true) →
    EndsNumber text → (value.write style depth).length < fuel →
    readValue floatRepr fuel (blank ++ (value.write style depth ++ text)) = some (value, text)
  | .null, depth, fuel + 1, blank, text, _, hblank, _, _ =>
      readValue_scalar hblank rfl rfl (by decide) (by decide) (by decide) rfl
  | .bool true, depth, fuel + 1, blank, text, _, hblank, _, _ =>
      readValue_scalar hblank rfl rfl (by decide) (by decide) (by decide) rfl
  | .bool false, depth, fuel + 1, blank, text, _, hblank, _, _ =>
      readValue_scalar hblank rfl rfl (by decide) (by decide) (by decide) rfl
  | .int value, depth, fuel + 1, blank, text, _, hblank, htext, _ =>
      readValue_number hblank (numberOf_writeInt floatRepr) writeInt_numberChars htext
  | .float repr, depth, fuel + 1, blank, text, hwell, hblank, htext, _ =>
      readValue_number hblank hwell.1 hwell.2 htext
  | .str value, depth, fuel + 1, blank, text, _, hblank, _, hfuel => by
      have hlength := length_flatMap_escapeChar value.toList
      simp only [JsonValue.write, writeString, List.length_cons, List.length_append] at hfuel
      have hread := readString_write value.toList text (show value.toList.length < fuel by omega)
      rw [readValue, skipSpace_append _ hblank, JsonValue.write, writeString, List.cons_append,
        skipSpace_of_head rfl]
      simp [hread]
  | .arr [], depth, fuel + 1, blank, text, _, hblank, _, _ => by
      have hclose : skipSpace (']' :: text) = ']' :: text := skipSpace_of_head rfl
      rw [readValue, skipSpace_append _ hblank, JsonValue.write, List.cons_append,
        skipSpace_of_head rfl]
      simp [hclose]
  | .arr (item :: items), depth, fuel + 1, blank, text, hwell, hblank, _, hfuel => by
      simp only [JsonValue.write, List.length_cons, List.length_append] at hfuel
      obtain ⟨c, rest, hitem, hspace, hne⟩ := write_head style hwell.1 (depth + 1)
      have hread := readItems_write hstyle items item depth fuel [] text hwell (by simp)
        (by rw [List.length_append]; omega)
      have hskip : skipSpace (style.newline (depth + 1) ++ (item.write style (depth + 1) ++
          (writeItems style depth items ++ text))) =
            item.write style (depth + 1) ++ (writeItems style depth items ++ text) := by
        rw [skipSpace_append _ (hstyle.newline _), hitem, List.cons_append, skipSpace_of_head hspace]
      have hhead : (item.write style (depth + 1) ++ (writeItems style depth items ++ text)).head? =
          some c := by
        rw [hitem]
        rfl
      rw [readValue, skipSpace_append _ hblank, JsonValue.write, List.cons_append,
        skipSpace_of_head rfl]
      simp only [List.append_assoc, List.nil_append] at hread ⊢
      simp [hskip, hhead, hne, hread]
  | .obj [], depth, fuel + 1, blank, text, _, hblank, _, _ => by
      have hclose : skipSpace ('\x7d' :: text) = '\x7d' :: text := skipSpace_of_head rfl
      rw [readValue, skipSpace_append _ hblank, JsonValue.write, List.cons_append,
        skipSpace_of_head rfl]
      simp [hclose]
  | .obj ((name, value) :: members), depth, fuel + 1, blank, text, hwell, hblank, _, hfuel => by
      obtain ⟨hunique, hmembers⟩ := hwell
      simp only [JsonValue.write, List.length_cons, List.length_append] at hfuel
      have hread := readMembers_write hstyle members name value depth fuel [] text hmembers (by simp)
        (by simp only [List.length_cons, List.length_append]; omega)
      have hfold : ((name, value) :: members).foldl setMember [] = (name, value) :: members :=
        foldl_setMember hunique
      rw [List.foldl_cons] at hfold
      have hskip : ∀ rest, skipSpace (style.newline (depth + 1) ++ (writeString name ++ rest)) =
          writeString name ++ rest := by
        intro rest
        rw [skipSpace_append _ (hstyle.newline _), writeString, List.cons_append, skipSpace_of_head rfl]
      have hhead : ∀ rest, (writeString name ++ rest).head? = some '"' := fun _ => rfl
      rw [readValue, skipSpace_append _ hblank, JsonValue.write, List.cons_append,
        skipSpace_of_head rfl]
      simp only [List.append_assoc, List.cons_append, List.nil_append] at hread ⊢
      simp [hskip, hhead, hread, hfold]

theorem readItems_write (hstyle : style.Blank) : ∀ (items : List JsonValue) (item : JsonValue)
    (depth fuel : Nat) (blank text : List Char), ItemsWellFormed floatRepr (item :: items) →
    (∀ c ∈ blank, isJsonSpace c = true) →
    (item.write style (depth + 1) ++ writeItems style depth items).length < fuel →
    readItems floatRepr fuel (blank ++ (item.write style (depth + 1) ++
      (writeItems style depth items ++ text))) = some (item :: items, text)
  | [], item, depth, fuel + 1, blank, text, hwell, hblank, hfuel => by
      simp only [writeItems, List.length_append, List.length_singleton] at hfuel
      have hread := readValue_write hstyle item (depth + 1) fuel blank
        (writeItems style depth [] ++ text) hwell.1 hblank (endsNumber_items hstyle [] text)
        (by omega)
      have hskip : skipSpace (writeItems style depth [] ++ text) = ']' :: text := by
        rw [writeItems, List.append_assoc, skipSpace_append _ (hstyle.newline _)]
        exact skipSpace_of_head rfl
      rw [readItems, hread]
      simp [hskip]
  | next :: items, item, depth, fuel + 1, blank, text, hwell, hblank, hfuel => by
      simp only [writeItems, List.length_append, List.length_cons] at hfuel
      have hread := readValue_write hstyle item (depth + 1) fuel blank
        (writeItems style depth (next :: items) ++ text) hwell.1 hblank
        (endsNumber_items hstyle (next :: items) text) (by omega)
      have hrest := readItems_write hstyle items next depth fuel (style.newline (depth + 1)) text
        hwell.2 (hstyle.newline _) (by rw [List.length_append]; omega)
      have hskip : skipSpace (writeItems style depth (next :: items) ++ text) =
          ',' :: (style.newline (depth + 1) ++ (next.write style (depth + 1) ++
            (writeItems style depth items ++ text))) := by
        rw [writeItems, List.cons_append, skipSpace_of_head rfl]
        simp only [List.append_assoc]
      rw [readItems, hread]
      simp [hskip, hrest]

theorem readMembers_write (hstyle : style.Blank) : ∀ (members : List (String × JsonValue))
    (name : String) (value : JsonValue) (depth fuel : Nat) (blank text : List Char),
    MembersWellFormed floatRepr ((name, value) :: members) →
    (∀ c ∈ blank, isJsonSpace c = true) →
    (writeString name ++ ':' :: (style.afterColon ++
      (value.write style (depth + 1) ++ writeMembers style depth members))).length < fuel →
    readMembers floatRepr fuel (blank ++ (writeString name ++ ':' :: (style.afterColon ++
      (value.write style (depth + 1) ++ (writeMembers style depth members ++ text))))) =
        some ((name, value) :: members, text)
  | members, name, value, depth, fuel + 1, blank, text, hwell, hblank, hfuel => by
      have hlength := length_flatMap_escapeChar name.toList
      simp only [writeString, List.length_append, List.length_cons] at hfuel
      have hname := readString_write name.toList (':' :: (style.afterColon ++
        (value.write style (depth + 1) ++ (writeMembers style depth members ++ text))))
        (show name.toList.length < fuel by omega)
      have hread := readValue_write hstyle value (depth + 1) fuel style.afterColon
        (writeMembers style depth members ++ text) hwell.1 hstyle.afterColon
        (endsNumber_members hstyle members text) (by omega)
      have hcolon : ∀ rest, skipSpace (':' :: rest) = ':' :: rest := fun _ => skipSpace_of_head rfl
      rw [readMembers, skipSpace_append _ hblank, writeString, List.cons_append, List.append_assoc,
        skipSpace_of_head rfl]
      simp only [List.singleton_append]
      cases members with
      | nil =>
          have hskip : skipSpace (writeMembers style depth [] ++ text) = '\x7d' :: text := by
            rw [writeMembers, List.append_assoc, skipSpace_append _ (hstyle.newline _)]
            exact skipSpace_of_head rfl
          simp [hname, hcolon, hread, hskip]
      | cons next members =>
          have hrest := readMembers_write hstyle members next.1 next.2 depth fuel
            (style.newline (depth + 1)) text hwell.2 (hstyle.newline _) (by
              simp only [writeMembers, List.length_append, List.length_cons] at hfuel
              simp only [List.length_append, List.length_cons]
              omega)
          have hskip : skipSpace (writeMembers style depth (next :: members) ++ text) =
              ',' :: (style.newline (depth + 1) ++ (writeString next.1 ++ ':' ::
                (style.afterColon ++ (next.2.write style (depth + 1) ++
                  (writeMembers style depth members ++ text))))) := by
            rw [writeMembers, List.cons_append, skipSpace_of_head rfl]
            simp only [List.append_assoc, List.cons_append]
          simp [hname, hcolon, hread, hskip, hrest]

end

/-- **Round trip.**  A text that a serialiser writes, with white space after it, is read as
the value. -/
theorem loads_dumps_append (hstyle : style.Blank) {value : JsonValue}
    (hwell : value.WellFormed floatRepr) (blank : List Char)
    (hblank : ∀ c ∈ blank, isJsonSpace c = true) :
    loads floatRepr (value.dumps style ++ String.ofList blank) = some value := by
  have hends : EndsNumber blank := by
    intro c hc
    have hspace := hblank c (List.mem_of_mem_head? hc)
    by_contra hnumber
    rw [(not_space_of_number (Bool.not_eq_false _ ▸ hnumber)).1] at hspace
    cases hspace
  have hread := readValue_write hstyle value 0 ((value.write style 0 ++ blank).length + 1) [] blank
    hwell (by simp) hends (by rw [List.length_append]; omega)
  have hskip : skipSpace blank = [] := by
    have happend := skipSpace_append [] hblank
    rwa [List.append_nil] at happend
  rw [List.nil_append, List.length_append] at hread
  simp [loads, JsonValue.dumps, ← String.ofList_append, hread, hskip]

theorem loads_dumps (hstyle : style.Blank) {value : JsonValue}
    (hwell : value.WellFormed floatRepr) : loads floatRepr (value.dumps style) = some value := by
  have h := loads_dumps_append hstyle hwell [] (by simp)
  simpa using h

/-- Distinct values have distinct texts. -/
theorem dumps_inj (hstyle : style.Blank) {left right : JsonValue}
    (hleft : left.WellFormed floatRepr) (hright : right.WellFormed floatRepr)
    (h : left.dumps style = right.dumps style) : left = right := by
  have hread := loads_dumps hstyle hleft
  rw [h, loads_dumps hstyle hright] at hread
  exact (Option.some.inj hread).symm

/-! ## Lines -/

theorem lineFeed_not_mem_escapeChar (c : Char) : '\n' ∉ escapeChar c := by
  have hdigit : ∀ n < 16, Nat.digitChar n ≠ '\n' := by decide
  unfold escapeChar
  split
  · decide
  split
  · decide
  split
  · decide
  split
  · decide
  split
  · decide
  split
  · decide
  split
  · decide
  split
  · next hcontrol =>
      have hhigh := hdigit (c.toNat / 16) (by omega)
      have hlow := hdigit (c.toNat % 16) (by omega)
      simp [hhigh.symm, hlow.symm]
  · next hfeed _ _ _ _ _ =>
      simpa using fun h : '\n' = c => hfeed h.symm

theorem lineFeed_not_mem_writeString (text : String) : '\n' ∉ writeString text := by
  simp only [writeString, List.mem_cons, List.mem_append, List.mem_flatMap, List.not_mem_nil,
    or_false, not_or, not_exists, not_and]
  exact ⟨by decide, fun c _ => lineFeed_not_mem_escapeChar c, by decide⟩

theorem lineFeed_not_number {chars : List Char} (h : ∀ c ∈ chars, isNumberChar c = true) :
    '\n' ∉ chars := by
  intro hmem
  have hnumber := h '\n' hmem
  revert hnumber
  decide

mutual

/-- The compact text of a value is one line. -/
theorem lineFeed_not_mem_write : ∀ (value : JsonValue) (depth : Nat),
    value.WellFormed floatRepr → '\n' ∉ value.write .compact depth
  | .null, _, _ => by simp [JsonValue.write]
  | .bool true, _, _ => by simp [JsonValue.write]
  | .bool false, _, _ => by simp [JsonValue.write]
  | .int _, _, _ => lineFeed_not_number writeInt_numberChars
  | .float _, _, hwell => lineFeed_not_number hwell.2
  | .str text, _, _ => lineFeed_not_mem_writeString text
  | .arr [], _, _ => by simp [JsonValue.write]
  | .arr (item :: items), depth, hwell => by
      have hitem := lineFeed_not_mem_write item (depth + 1) hwell.1
      have hitems := lineFeed_not_mem_writeItems items depth hwell.2
      simp [JsonValue.write, JsonStyle.compact] at hitem hitems ⊢
      exact ⟨hitem, hitems⟩
  | .obj [], _, _ => by simp [JsonValue.write]
  | .obj ((name, value) :: members), depth, hwell => by
      have hname := lineFeed_not_mem_writeString name
      have hvalue := lineFeed_not_mem_write value (depth + 1) hwell.2.1
      have hmembers := lineFeed_not_mem_writeMembers members depth hwell.2.2
      simp [JsonValue.write, JsonStyle.compact] at hname hvalue hmembers ⊢
      exact ⟨hname, hvalue, hmembers⟩

theorem lineFeed_not_mem_writeItems : ∀ (items : List JsonValue) (depth : Nat),
    ItemsWellFormed floatRepr items → '\n' ∉ writeItems .compact depth items
  | [], _, _ => by simp [writeItems, JsonStyle.compact]
  | item :: items, depth, hwell => by
      have hitem := lineFeed_not_mem_write item (depth + 1) hwell.1
      have hitems := lineFeed_not_mem_writeItems items depth hwell.2
      simp [writeItems, JsonStyle.compact] at hitem hitems ⊢
      exact ⟨hitem, hitems⟩

theorem lineFeed_not_mem_writeMembers : ∀ (members : List (String × JsonValue)) (depth : Nat),
    MembersWellFormed floatRepr members → '\n' ∉ writeMembers .compact depth members
  | [], _, _ => by simp [writeMembers, JsonStyle.compact]
  | (name, value) :: members, depth, hwell => by
      have hname := lineFeed_not_mem_writeString name
      have hvalue := lineFeed_not_mem_write value (depth + 1) hwell.1
      have hmembers := lineFeed_not_mem_writeMembers members depth hwell.2
      simp [writeMembers, JsonStyle.compact] at hname hvalue hmembers ⊢
      exact ⟨hname, hvalue, hmembers⟩

end

theorem lineFeed_not_mem_dumps {value : JsonValue} (h : value.WellFormed floatRepr) :
    10 ∉ utf8 (value.dumps .compact) := by
  intro hbyte
  have hmem := lineFeed_of_mem_utf8 hbyte
  rw [JsonValue.dumps, String.toList_ofList] at hmem
  exact lineFeed_not_mem_write value 0 h hmem

/-! ## Sorted names -/

mutual

/-- `sort_keys=True` -/
def JsonValue.sortKeys : JsonValue → JsonValue
  | .arr items => .arr (sortKeysItems items)
  | .obj members => .obj (sortOn Prod.fst (sortKeysMembers members))
  | value => value

def sortKeysItems : List JsonValue → List JsonValue
  | [] => []
  | item :: items => item.sortKeys :: sortKeysItems items

def sortKeysMembers : List (String × JsonValue) → List (String × JsonValue)
  | [] => []
  | (name, value) :: members => (name, value.sortKeys) :: sortKeysMembers members

end

/-- `json.dumps(value, ensure_ascii=False, separators=(",", ":"), sort_keys=True).encode()` -/
def canonicalJsonBytes (value : JsonValue) : Bytes := utf8 (value.sortKeys.dumps .compact)

theorem membersWellFormed_iff {members : List (String × JsonValue)} :
    MembersWellFormed floatRepr members ↔ ∀ member ∈ members, member.2.WellFormed floatRepr := by
  induction members with
  | nil => simp [MembersWellFormed]
  | cons member members ih => simp [MembersWellFormed, ih]

theorem map_fst_sortKeysMembers (members : List (String × JsonValue)) :
    (sortKeysMembers members).map Prod.fst = members.map Prod.fst := by
  induction members with
  | nil => rfl
  | cons member members ih => simp [sortKeysMembers, ih]

mutual

theorem sortKeys_wellFormed : ∀ (value : JsonValue), value.WellFormed floatRepr →
    value.sortKeys.WellFormed floatRepr
  | .null, h => h
  | .bool _, h => h
  | .int _, h => h
  | .float _, h => h
  | .str _, h => h
  | .arr items, h => sortKeysItems_wellFormed items h
  | .obj members, ⟨hunique, hmembers⟩ => by
      have hperm := sortOn_perm Prod.fst (sortKeysMembers members)
      have hsorted := membersWellFormed_iff.mp (sortKeysMembers_wellFormed members hmembers)
      constructor
      · rw [(hperm.map Prod.fst).nodup_iff, map_fst_sortKeysMembers]
        exact hunique
      · apply membersWellFormed_iff.mpr
        intro member hmember
        exact hsorted member (mem_sortOn.mp hmember)

theorem sortKeysItems_wellFormed : ∀ (items : List JsonValue), ItemsWellFormed floatRepr items →
    ItemsWellFormed floatRepr (sortKeysItems items)
  | [], h => h
  | item :: items, h => ⟨sortKeys_wellFormed item h.1, sortKeysItems_wellFormed items h.2⟩

theorem sortKeysMembers_wellFormed : ∀ (members : List (String × JsonValue)),
    MembersWellFormed floatRepr members → MembersWellFormed floatRepr (sortKeysMembers members)
  | [], h => h
  | (_, value) :: members, h =>
      ⟨sortKeys_wellFormed value h.1, sortKeysMembers_wellFormed members h.2⟩

end

/-- Values with the same canonical bytes are the same, up to the order of their names. -/
theorem sortKeys_eq_of_canonicalJsonBytes {left right : JsonValue}
    (hleft : left.WellFormed floatRepr) (hright : right.WellFormed floatRepr)
    (h : canonicalJsonBytes left = canonicalJsonBytes right) : left.sortKeys = right.sortKeys :=
  dumps_inj compact_blank (sortKeys_wellFormed left hleft) (sortKeys_wellFormed right hright)
    (utf8_injective h)

end Reader

end MiniLakehouse
