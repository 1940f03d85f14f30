import RabbitJobQueue.Proofs.JsonFields
import Mathlib.Data.List.TakeWhile

/-! # JSON text

A mapper that does what is relied on: trees are printed as JSON without blanks, and read back by recursive
descent. Only a double is not printed as its number, but as the number its bits are.
-/

namespace RabbitJobQueue.Model.JsonText

/-- A character of a text. -/
def escaped (char : Char) : List Char :=
  if char = '"' ∨ char = '\\' then ['\\', char]
  else if char.toNat < 32 then
    ['\\', 'u', '0', '0', (char.toNat / 16).digitChar, (char.toNat % 16).digitChar]
  else [char]

def quoted (value : String) : List Char := '"' :: (value.toList.flatMap escaped ++ ['"'])

def digits (value : ℕ) : List Char := Nat.toDigits 10 value

def signed (value : ℤ) : List Char :=
  if value < 0 then '-' :: digits value.natAbs else digits value.natAbs

mutual

def text : JsonNode → List Char
  | .null => ['n', 'u', 'l', 'l']
  | .boolean true => ['t', 'r', 'u', 'e']
  | .boolean false => ['f', 'a', 'l', 's', 'e']
  | .int value => signed value.toInt
  | .long value => signed value.toInt
  | .bigInteger value => signed value
  | .double bits => digits bits.toNat ++ ['.', '0']
  | .text value => quoted value
  | .array elements => '[' :: elementsText true elements
  | .object fields => '{' :: fieldsText true fields
  | .pojo value => valueText value

/-- The elements that are left of an array, and the bracket that closes it. -/
def elementsText (first : Bool) : List JsonNode → List Char
  | [] => [']']
  | element :: rest => (if first then [] else [',']) ++ (text element ++ elementsText false rest)

def fieldsText (first : Bool) : List (String × JsonNode) → List Char
  | [] => ['}']
  | (key, node) :: rest =>
    (if first then [] else [',']) ++ (quoted key ++ ':' :: (text node ++ fieldsText false rest))

def valueText : Option JsonNode → List Char
  | none => ['n', 'u', 'l', 'l']
  | some node => text node

end

def hexValue (char : Char) : ℕ := if char.isDigit then char.toNat - 48 else char.toNat - 87

/-- A text up to the quote that ends it. -/
def readText : List Char → Option (List Char × List Char)
  | [] => none
  | '"' :: rest => some ([], rest)
  | '\\' :: 'u' :: '0' :: '0' :: high :: low :: rest =>
    (readText rest).map fun (chars, rest) =>
      (Char.ofNat (16 * hexValue high + hexValue low) :: chars, rest)
  | '\\' :: char :: rest => (readText rest).map fun (chars, rest) => (char :: chars, rest)
  | char :: rest => (readText rest).map fun (chars, rest) => (char :: chars, rest)

def isNumeric (char : Char) : Bool := char.isDigit || char == '-' || char == '.'

/-- The narrowest node that holds the integer. -/
def integerNode (value : ℤ) : JsonNode :=
  if -2 ^ 31 ≤ value ∧ value < 2 ^ 31 then .int (Int32.ofInt value)
  else if -2 ^ 63 ≤ value ∧ value < 2 ^ 63 then .long (Int64.ofInt value)
  else .bigInteger value

def readDigits (chars : List Char) : Option ℕ :=
  if chars ≠ [] ∧ chars.all Char.isDigit then some (Nat.ofDigitChars 10 chars 0) else none

def readNumber : List Char → Option JsonNode
  | '-' :: chars => (readDigits chars).map fun value : ℕ => integerNode (-value)
  | chars =>
    if '.' ∈ chars then
      (readDigits (chars.takeWhile (· ≠ '.'))).map fun value => .double (UInt64.ofNat value)
    else (readDigits chars).map fun value : ℕ => integerNode value

def readWord (word : List Char) (node : JsonNode) (chars : List Char) : Option (JsonNode × List Char) :=
  if word.isPrefixOf chars then some (node, chars.drop word.length) else none

mutual

def readValue : ℕ → List Char → Option (JsonNode × List Char)
  | 0, _ => none
  | _, [] => none
  | fuel + 1, char :: rest =>
    match char with
    | '"' => (readText rest).map fun (chars, rest) => (.text (String.ofList chars), rest)
    | '[' => (readElements fuel true rest).map fun (elements, rest) => (.array elements, rest)
    | '{' => (readFields fuel true rest).map fun (fields, rest) => (.object fields, rest)
    | 'n' => readWord ['u', 'l', 'l'] .null rest
    | 't' => readWord ['r', 'u', 'e'] (.boolean true) rest
    | 'f' => readWord ['a', 'l', 's', 'e'] (.boolean false) rest
    | _ =>
      (readNumber ((char :: rest).takeWhile isNumeric)).map fun node =>
        (node, (char :: rest).dropWhile isNumeric)

def readElements : ℕ → Bool → List Char → Option (List JsonNode × List Char)
  | 0, _, _ => none
  | _, _, [] => none
  | fuel + 1, first, char :: rest =>
    if char = ']' then some ([], rest)
    else if first || char == ',' then do
      let (element, rest) ← readValue fuel (if first then char :: rest else rest)
      let (elements, rest) ← readElements fuel false rest
      return (element :: elements, rest)
    else none

def readFields : ℕ → Bool → List Char → Option (List (String × JsonNode) × List Char)
  | 0, _, _ => none
  | _, _, [] => none
  | fuel + 1, first, char :: rest =>
    if char = '}' then some ([], rest)
    else if first || char == ',' then do
      let (key, rest) ← readText ((if first then char :: rest else rest).drop 1)
      let (node, rest) ← readValue fuel (rest.drop 1)
      let (fields, rest) ← readFields fuel false rest
      return ((String.ofList key, node) :: fields, rest)
    else none

end

private theorem hexValue_digitChar : ∀ value < 16, hexValue value.digitChar = value := by decide

private theorem readText_escaped (char : Char) (rest : List Char) :
    readText (escaped char ++ rest) =
      (readText rest).map fun (chars, rest) => (char :: chars, rest) := by
  rw [escaped]
  split
  · rename_i special
    rcases special with rfl | rfl
    · simp [readText]
    · simp [readText]
  · rename_i plain
    rw [not_or] at plain
    split
    · rename_i control
      have high := hexValue_digitChar (char.toNat / 16) (by omega)
      have low := hexValue_digitChar (char.toNat % 16) (by omega)
      have whole : 16 * (char.toNat / 16) + char.toNat % 16 = char.toNat := by omega
      simp [readText, high, low, whole]
    · simp [readText, plain]

/-- A printed text is read up to its end. -/
private theorem readText_flatMap (chars rest : List Char) :
    readText (chars.flatMap escaped ++ '"' :: rest) = some (chars, rest) := by
  induction chars with
  | nil => simp [readText]
  | cons char chars ih => rw [List.flatMap_cons, List.append_assoc, readText_escaped, ih]; rfl

/-- Where a number ends. -/
def Ended (rest : List Char) : Prop := ∀ char ∈ rest.head?, isNumeric char = false

private theorem isDigit_of_mem_digits {value : ℕ} {char : Char} (member : char ∈ digits value) :
    char.isDigit = true :=
  Nat.isDigit_of_mem_toDigits (by decide) (by decide) member

private theorem digits_ne_nil (value : ℕ) : digits value ≠ [] := Nat.toDigits_ne_nil

private theorem readDigits_digits (value : ℕ) : readDigits (digits value) = some value := by
  have allDigits : (digits value).all Char.isDigit = true :=
    List.all_eq_true.mpr fun _ => isDigit_of_mem_digits
  rw [readDigits, if_pos ⟨digits_ne_nil value, allDigits⟩, digits, Nat.ofDigitChars_ten_toDigits]

private theorem not_mem_digits {value : ℕ} {char : Char} (other : char.isDigit = false) :
    char ∉ digits value := by
  intro member
  rw [isDigit_of_mem_digits member] at other
  contradiction

private theorem readNumber_signed (value : ℤ) : readNumber (signed value) = some (integerNode value) := by
  rw [signed]
  split
  · rename_i negative
    rw [readNumber, readDigits_digits, Option.map_some]
    congr
    omega
  · have noSign : ∀ chars, digits value.natAbs ≠ '-' :: chars := by
      intro chars same
      have member : '-' ∈ digits value.natAbs := same ▸ List.mem_cons_self
      exact not_mem_digits (by decide) member
    rw [readNumber.eq_2 _ noSign, if_neg (not_mem_digits (by decide)), readDigits_digits, Option.map_some]
    congr
    omega

private theorem readNumber_double (bits : UInt64) :
    readNumber (digits bits.toNat ++ ['.', '0']) = some (.double bits) := by
  have noSign : ∀ chars, digits bits.toNat ++ ['.', '0'] ≠ '-' :: chars := by
    intro chars same
    have member : '-' ∈ digits bits.toNat ++ ['.', '0'] := same ▸ List.mem_cons_self
    rw [List.mem_append] at member
    exact member.elim (not_mem_digits (by decide)) (by decide)
  have before : (digits bits.toNat ++ ['.', '0']).takeWhile (· ≠ '.') = digits bits.toNat := by
    rw [List.takeWhile_append_of_pos]
    · simp
    · intro char member
      rw [decide_eq_true_iff]
      rintro rfl
      exact not_mem_digits (by decide) member
  rw [readNumber.eq_2 _ noSign, if_pos (by simp), before, readDigits_digits, Option.map_some,
    UInt64.ofNat_toNat]

private theorem integerNode_of_isParsed {node : JsonNode} (parsed : node.isParsed = true) {value : ℤ}
    (integer : node.integer = some value) : integerNode value = node := by
  cases node with
  | int held =>
    cases integer
    rw [integerNode, if_pos ⟨held.le_toInt, held.toInt_lt⟩, Int32.ofInt_toInt]
  | long held =>
    cases integer
    rw [JsonNode.isParsed, Bool.or_eq_true, decide_eq_true_iff, decide_eq_true_iff] at parsed
    rw [integerNode, if_neg (by omega), if_pos ⟨held.le_toInt, held.toInt_lt⟩, Int64.ofInt_toInt]
  | bigInteger held =>
    cases integer
    rw [JsonNode.isParsed, Bool.or_eq_true, decide_eq_true_iff, decide_eq_true_iff] at parsed
    rw [integerNode, if_neg (by omega), if_neg (by omega)]
  | _ => contradiction

private theorem isNumeric_of_mem_signed {value : ℤ} {char : Char} (member : char ∈ signed value) :
    isNumeric char = true := by
  rw [signed] at member
  rw [isNumeric]
  split at member
  · rcases List.mem_cons.mp member with rfl | member
    · decide
    · simp [isDigit_of_mem_digits member]
  · simp [isDigit_of_mem_digits member]

private theorem signed_ne_nil (value : ℤ) : signed value ≠ [] := by
  rw [signed]
  split
  · exact List.cons_ne_nil _ _
  · exact digits_ne_nil _

/-- A number is read up to its end. -/
private theorem readValue_number {chars rest : List Char} {node : JsonNode} (fuel : ℕ)
    (numeric : ∀ char ∈ chars, isNumeric char = true) (some : chars ≠ [])
    (read : readNumber chars = .some node) (ended : Ended rest) :
    readValue (fuel + 1) (chars ++ rest) = .some (node, rest) := by
  have front : (chars ++ rest).takeWhile isNumeric = chars := by
    rw [List.takeWhile_append_of_pos numeric]
    cases rest with
    | nil => simp
    | cons char rest => simp [ended char rfl]
  have back : (chars ++ rest).dropWhile isNumeric = rest := by
    rw [List.dropWhile_append_of_pos numeric]
    cases rest with
    | nil => simp
    | cons char rest => simp [ended char rfl]
  cases chars with
  | nil => exact absurd rfl some
  | cons char chars =>
    rw [List.cons_append] at front back ⊢
    have first := numeric char List.mem_cons_self
    rw [readValue, front, back, read]
    · rfl
    -- no number begins as another value does
    all_goals rintro rfl; contradiction

private theorem readWord_append (word rest : List Char) (node : JsonNode) :
    readWord word node (word ++ rest) = some (node, rest) := by
  rw [readWord, if_pos (by simp), List.drop_left]

/-- What a value is read from does not begin with the end of an array. -/
private theorem exists_cons_of_readValue {fuel : ℕ} {chars : List Char} {result : JsonNode × List Char}
    (read : readValue fuel chars = some result) : ∃ char rest, chars = char :: rest ∧ char ≠ ']' := by
  cases fuel with
  | zero => rw [readValue] at read; contradiction
  | succ fuel =>
    cases chars with
    | nil => rw [readValue] at read; contradiction; rintro ⟨⟩
    | cons char rest =>
      refine ⟨char, rest, rfl, ?_⟩
      rintro rfl
      simp [readValue, readNumber, readDigits, isNumeric] at read

private theorem ended_elementsText (elements : List JsonNode) (rest : List Char) :
    Ended (elementsText false elements ++ rest) := by
  cases elements <;> simp [elementsText, Ended, isNumeric]

private theorem ended_fieldsText (fields : List (String × JsonNode)) (rest : List Char) :
    Ended (fieldsText false fields ++ rest) := by
  cases fields <;> simp [fieldsText, Ended, isNumeric]

private theorem readValue_signed {node : JsonNode} (parsed : node.isParsed = true) {value : ℤ}
    (integer : node.integer = some value) (fuel : ℕ) {rest : List Char} (ended : Ended rest) :
    readValue (fuel + 1) (signed value ++ rest) = some (node, rest) := by
  refine readValue_number fuel (fun _ => isNumeric_of_mem_signed) (signed_ne_nil _) ?_ ended
  rw [readNumber_signed, integerNode_of_isParsed parsed integer]

private theorem readValue_double (bits : UInt64) (fuel : ℕ) {rest : List Char} (ended : Ended rest) :
    readValue (fuel + 1) (digits bits.toNat ++ ['.', '0'] ++ rest) = some (.double bits, rest) := by
  refine readValue_number fuel (fun char member => ?_) (by simp) (readNumber_double bits) ended
  rcases List.mem_append.mp member with member | member
  · simp [isNumeric, isDigit_of_mem_digits member]
  · rw [List.mem_cons, List.mem_singleton] at member
    rcases member with rfl | rfl
    · decide
    · decide

mutual

/-- A printed tree is read back, with more fuel than it has characters. -/
private theorem readValue_text (node : JsonNode) (parsed : node.isParsed = true) (fuel : ℕ) (rest : List Char)
    (enough : (text node).length < fuel) (ended : Ended rest) :
    readValue fuel (text node ++ rest) = some (node, rest) := by
  obtain ⟨fuel, rfl⟩ := Nat.exists_eq_succ_of_ne_zero (Nat.ne_zero_of_lt enough)
  cases node with
  | null => rw [text, List.cons_append, readValue]; exact readWord_append ['u', 'l', 'l'] rest .null
  | boolean value =>
    cases value with
    | true =>
      rw [text, List.cons_append, readValue]
      exact readWord_append ['r', 'u', 'e'] rest (.boolean true)
    | false =>
      rw [text, List.cons_append, readValue]
      exact readWord_append ['a', 'l', 's', 'e'] rest (.boolean false)
  | int value => exact readValue_signed parsed rfl fuel ended
  | long value => exact readValue_signed parsed rfl fuel ended
  | bigInteger value => exact readValue_signed parsed rfl fuel ended
  | double bits => exact readValue_double bits fuel ended
  | text value =>
    rw [text, quoted, List.cons_append, List.append_assoc, readValue, List.singleton_append,
      readText_flatMap]
    simp only [Option.map_some, String.ofList_toList]
  | array elements =>
    rw [JsonNode.isParsed] at parsed
    rw [text, List.length_cons] at enough
    rw [text, List.cons_append, readValue, readElements_text elements parsed _ true rest (by omega),
      Option.map_some]
  | object fields =>
    rw [JsonNode.isParsed, Bool.and_eq_true] at parsed
    rw [text, List.length_cons] at enough
    rw [text, List.cons_append, readValue, readFields_text fields parsed.2 _ true rest (by omega),
      Option.map_some]
  | pojo value => rw [JsonNode.isParsed] at parsed; contradiction

private theorem readElements_text (elements : List JsonNode)
    (parsed : JsonNode.elementsParsed elements = true)
    (fuel : ℕ) (first : Bool) (rest : List Char) (enough : (elementsText first elements).length < fuel) :
    readElements fuel first (elementsText first elements ++ rest) = some (elements, rest) := by
  obtain ⟨fuel, rfl⟩ := Nat.exists_eq_succ_of_ne_zero (Nat.ne_zero_of_lt enough)
  match elements with
  | [] => rw [elementsText, List.cons_append, readElements, if_pos rfl, List.nil_append]
  | element :: others =>
    rw [JsonNode.elementsParsed, Bool.and_eq_true] at parsed
    have alone := readValue_text element parsed.1 _ [] (Nat.lt_succ_self _) (by rintro _ ⟨⟩)
    rw [List.append_nil] at alone
    obtain ⟨char, chars, same, notEnd⟩ := exists_cons_of_readValue alone
    have longer : 0 < (text element).length := by simp [same]
    have closing : 0 < (elementsText false others).length := by cases others <;> simp [elementsText]
    rw [elementsText, List.length_append, List.length_append] at enough
    have readFirst := readValue_text element parsed.1 fuel (elementsText false others ++ rest) (by omega)
      (ended_elementsText _ _)
    have readOthers := readElements_text others parsed.2 fuel false rest (by omega)
    cases first with
    | true =>
      rw [same, List.cons_append] at readFirst
      simp [elementsText, same, readElements, notEnd, readFirst, readOthers]
    | false =>
      simp [elementsText, readElements, readFirst, readOthers]

private theorem readFields_text (fields : List (String × JsonNode))
    (parsed : JsonNode.fieldsParsed fields = true)
    (fuel : ℕ) (first : Bool) (rest : List Char) (enough : (fieldsText first fields).length < fuel) :
    readFields fuel first (fieldsText first fields ++ rest) = some (fields, rest) := by
  obtain ⟨fuel, rfl⟩ := Nat.exists_eq_succ_of_ne_zero (Nat.ne_zero_of_lt enough)
  match fields with
  | [] => rw [fieldsText, List.cons_append, readFields, if_pos rfl, List.nil_append]
  | (key, node) :: others =>
    rw [JsonNode.fieldsParsed, Bool.and_eq_true] at parsed
    rw [fieldsText, List.length_append, List.length_append, List.length_cons, List.length_append] at enough
    have readNode := readValue_text node parsed.1 fuel (fieldsText false others ++ rest) (by omega)
      (ended_fieldsText _ _)
    have readOthers := readFields_text others parsed.2 fuel false rest (by omega)
    cases first <;> simp [fieldsText, quoted, readFields, readText_flatMap, readNode, readOthers]

end

mutual

private theorem text_printed (node : JsonNode) : text node.printed = text node := by
  cases node with
  | array elements => rw [JsonNode.printed, text, text, elementsText_printed elements true]
  | object fields => rw [JsonNode.printed, text, text, fieldsText_printed fields true]
  | pojo value => rw [JsonNode.printed, text, valueText_printed value]
  | _ => rw [JsonNode.printed]

private theorem elementsText_printed (elements : List JsonNode) (first : Bool) :
    elementsText first (JsonNode.elementsPrinted elements) = elementsText first elements := by
  cases elements with
  | nil => rw [JsonNode.elementsPrinted]
  | cons element rest =>
    rw [JsonNode.elementsPrinted, elementsText, elementsText, text_printed element,
      elementsText_printed rest false]

private theorem fieldsText_printed (fields : List (String × JsonNode)) (first : Bool) :
    fieldsText first (JsonNode.fieldsPrinted fields) = fieldsText first fields := by
  match fields with
  | [] => rw [JsonNode.fieldsPrinted]
  | (key, node) :: rest =>
    rw [JsonNode.fieldsPrinted, fieldsText, fieldsText, text_printed node, fieldsText_printed rest false]

private theorem valueText_printed (value : Option JsonNode) :
    text (JsonNode.valuePrinted value) = valueText value := by
  cases value with
  | none => rw [JsonNode.valuePrinted, text, valueText]
  | some node => rw [JsonNode.valuePrinted, valueText, text_printed node]

end

/-- The first value of the bytes. A key that occurs twice in its object is refused. -/
def mapper : ObjectMapper where
  print node := String.ofList (text node)
  parse bytes :=
    match (String.fromUTF8? bytes).bind fun chars => readValue (chars.length + 1) chars.toList with
    | some (node, _) => if node.isParsed then .ok node else .error (.other "StreamReadException")
    | none => .error (.other "StreamReadException")

private theorem fromUTF8?_toUTF8 (value : String) : String.fromUTF8? value.toUTF8 = some value :=
  dif_pos value.isValidUTF8

/-- It has no limits. -/
theorem mapper_lawful : mapper.Lawful fun _ => True where
  print_printed node := by
    change String.ofList (text node) = String.ofList (text node.printed)
    rw [text_printed]
  parse_print node parsed _ := by
    have read := readValue_text node parsed _ [] (Nat.lt_succ_self _) (by rintro _ ⟨⟩)
    rw [List.append_nil] at read
    simp only [mapper, fromUTF8?_toUTF8, Option.bind_some, String.length_ofList, String.toList_ofList]
    rw [read]
    exact if_pos parsed
  isParsed_of_parse bytes node read := by
    simp only [mapper] at read
    split at read
    · split at read
      · rename_i parsed
        cases read
        exact parsed
      · contradiction
    · contradiction

/-- An object that a dispatch could be read from. -/
example : String.ofList (text (.object [("jobID", .text "a\"b"), ("attemptCount", .int (-1)),
    ("body", .pojo (some (.array [.null, .boolean true])))])) =
    "\x7b\"jobID\":\"a\\\"b\",\"attemptCount\":-1,\"body\":[null,true]\x7d" := by decide

end RabbitJobQueue.Model.JsonText
