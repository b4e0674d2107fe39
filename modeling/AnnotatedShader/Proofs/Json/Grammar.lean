import AnnotatedShader.Json.Reader
import AnnotatedShader.Json.Writer
import AnnotatedShader.Proofs.Number.Layout

set_option autoImplicit false

/-!
# The grammar of documents

The grammar of RFC 8259 as a relation between texts and values, with no reader in it.  `IsDocument`
is the relation for a whole text; strings are related by their code units, since a character beyond
the first plane is escaped as two.

What is written of a value is a text of the grammar for this value (`isDocument_document`), if each
floating number in the value is finite: the grammar has no numbers for the infinities (`Finite`).
The proof goes by the structure of the value, with the text of a number from the theory of floating
literals and one lemma for each kind of character in a string.
-/

namespace AnnotatedShader.Json

open AnnotatedShader.Number

/-! ## Texts and values -/

/-- A blank between tokens. -/
def isGap (c : Char) : Bool := c == ' ' || c == '\t' || c == '\n' || c == '\r'

/-- Blanks between tokens. -/
def IsGap (text : List Char) : Prop := ∀ c ∈ text, isGap c = true

/-- What stands between the quotes of a string, and the code units that it denotes. -/
inductive DenotesUnits : List Char → List Nat → Prop
  | nil : DenotesUnits [] []
  | plain {c : Char} {text : List Char} {units : List Nat} (hcontrol : 0x20 ≤ c.toNat)
    (hquote : c ≠ '"') (hbackslash : c ≠ '\\') (hrest : DenotesUnits text units) :
    DenotesUnits (c :: text) (Text.toUnits c ++ units)
  | letter {e c : Char} {text : List Char} {units : List Nat} (he : escaped? e = some c)
    (hrest : DenotesUnits text units) : DenotesUnits ('\\' :: e :: text) (c.toNat :: units)
  | unit {a b c d : Char} {unit : Nat} {text : List Char} {units : List Nat}
    (hunit : hexUnit? a b c d = some unit) (hrest : DenotesUnits text units) :
    DenotesUnits ('\\' :: 'u' :: a :: b :: c :: d :: text) (unit :: units)

/-- A string with its quotes. -/
inductive DenotesString : List Char → String → Prop
  | quoted {body cs : List Char} {units : List Nat} (hbody : DenotesUnits body units)
    (hunits : Text.ofUnits units = some cs) :
    DenotesString ('"' :: (body ++ ['"'])) (String.ofList cs)

/-- The parts of a document: a value, a value between blanks, a member of an object, the items of an
array and the members of an object, one at least. -/
inductive Part where
  | value (j : Json)
  | element (j : Json)
  | member (m : String × Json)
  | items (js : List Json)
  | members (ms : List (String × Json))

/-- What a text denotes. -/
inductive Denotes : List Char → Part → Prop
  | null : Denotes "null".toList (.value .null)
  | yes : Denotes "true".toList (.value (.bool true))
  | no : Denotes "false".toList (.value (.bool false))
  | int (n : Literal) (h : n.isInteger = true) :
    Denotes n.toText (.value (.int (intOfDigits n.toText)))
  | float (n : Literal) (h : n.isInteger = false) :
    Denotes n.toText (.value (.float (Binary64.ofText n.toText)))
  | str {text : List Char} {s : String} (h : DenotesString text s) : Denotes text (.value (.str s))
  | emptyArray {gap : List Char} (hgap : IsGap gap) :
    Denotes ('[' :: (gap ++ [']'])) (.value (.array []))
  | array {text : List Char} {js : List Json} (h : Denotes text (.items js)) :
    Denotes ('[' :: (text ++ [']'])) (.value (.array js))
  | emptyObject {gap : List Char} (hgap : IsGap gap) :
    Denotes ('\x7b' :: (gap ++ ['\x7d'])) (.value (.object []))
  | object {text : List Char} {ms : List (String × Json)} (h : Denotes text (.members ms)) :
    Denotes ('\x7b' :: (text ++ ['\x7d'])) (.value (.object ms))
  | element {front text behind : List Char} {j : Json} (hfront : IsGap front)
    (h : Denotes text (.value j)) (hbehind : IsGap behind) :
    Denotes (front ++ (text ++ behind)) (.element j)
  | member {front name gap text : List Char} {s : String} {j : Json} (hfront : IsGap front)
    (hname : DenotesString name s) (hgap : IsGap gap) (h : Denotes text (.element j)) :
    Denotes (front ++ (name ++ (gap ++ ':' :: text))) (.member (s, j))
  | lastItem {text : List Char} {j : Json} (h : Denotes text (.element j)) :
    Denotes text (.items [j])
  | item {text rest : List Char} {j : Json} {js : List Json} (h : Denotes text (.element j))
    (hrest : Denotes rest (.items js)) : Denotes (text ++ ',' :: rest) (.items (j :: js))
  | lastMember {text : List Char} {m : String × Json} (h : Denotes text (.member m)) :
    Denotes text (.members [m])
  | nextMember {text rest : List Char} {m : String × Json} {ms : List (String × Json)}
    (h : Denotes text (.member m)) (hrest : Denotes rest (.members ms)) :
    Denotes (text ++ ',' :: rest) (.members (m :: ms))

/-- A document: one value, with blanks around it. -/
def IsDocument (text : String) (j : Json) : Prop := Denotes text.toList (.element j)

/-! ## Written strings -/

theorem toNat_valid (c : Char) : c.toNat < 0xD800 ∨ 0xDFFF < c.toNat ∧ c.toNat < 0x110000 := c.valid

/-- The units of a character are read as the character. -/
theorem ofUnits_toUnits_append (c : Char) (units : List Nat) :
    Text.ofUnits (Text.toUnits c ++ units) = (Text.ofUnits units).map (c :: ·) := by
  have hvalid := toNat_valid c
  by_cases hsmall : c.toNat < 0x10000
  · have hhigh : Text.isHighSurrogate c.toNat = false := by
      simp only [Text.isHighSurrogate, Bool.and_eq_false_iff, decide_eq_false_iff_not]
      omega
    have hlow : Text.isLowSurrogate c.toNat = false := by
      simp only [Text.isLowSurrogate, Bool.and_eq_false_iff, decide_eq_false_iff_not]
      omega
    rw [Text.toUnits, if_pos hsmall, List.singleton_append, Text.ofUnits.eq_def]
    simp only [hhigh, hlow, Bool.false_eq_true, if_false, Char.ofNat_toNat]
  · have hhigh : Text.isHighSurrogate (0xD800 + (c.toNat - 0x10000) / 0x400) = true := by
      simp only [Text.isHighSurrogate, Bool.and_eq_true, decide_eq_true_eq]
      omega
    have hlow : Text.isLowSurrogate (0xDC00 + (c.toNat - 0x10000) % 0x400) = true := by
      simp only [Text.isLowSurrogate, Bool.and_eq_true, decide_eq_true_eq]
      omega
    have hcode : 0x10000 + (0xD800 + (c.toNat - 0x10000) / 0x400 - 0xD800) * 0x400 +
        (0xDC00 + (c.toNat - 0x10000) % 0x400 - 0xDC00) = c.toNat := by omega
    rw [Text.toUnits, if_neg hsmall, List.cons_append, List.cons_append, List.nil_append,
      Text.ofUnits, if_pos hhigh]
    simp only [hlow, if_true, hcode, Char.ofNat_toNat]

theorem hexValue?_hexDigit {n : Nat} (h : n < 16) : hexValue? (Text.hexDigit n) = some n := by
  have hall : ∀ m < 16, hexValue? (Text.hexDigit m) = some m := by decide
  exact hall n h

/-- Four digits of a code unit are read as the unit. -/
theorem denotesUnits_hexDigits (unit : Nat) {text : List Char} {units : List Nat}
    (hunit : unit < 0x10000) (hrest : DenotesUnits text units) :
    DenotesUnits ('\\' :: 'u' :: Text.hexDigits 4 unit ++ text) (unit :: units) := by
  refine .unit ?_ hrest
  simp only [hexUnit?, hexValue?_hexDigit (Nat.mod_lt _ (by decide : 16 > 0)), Option.bind_eq_bind,
    Option.bind_some, Option.some.injEq]
  omega

theorem denotesUnits_toUnits (c : Char) {text : List Char} {units : List Nat}
    (hrest : DenotesUnits text units) :
    DenotesUnits
      (((Text.toUnits c).flatMap fun unit => '\\' :: 'u' :: Text.hexDigits 4 unit) ++ text)
      (Text.toUnits c ++ units) := by
  have hvalid := toNat_valid c
  rw [Text.toUnits]
  split
  · rename_i hsmall
    simpa using denotesUnits_hexDigits c.toNat hsmall hrest
  · have hlow := denotesUnits_hexDigits (0xDC00 + (c.toNat - 0x10000) % 0x400) (by omega) hrest
    have hhigh := denotesUnits_hexDigits (0xD800 + (c.toNat - 0x10000) / 0x400) (by omega) hlow
    simpa using hhigh

/-- The characters that are escaped by a letter. -/
def lettered : List Char := ['"', '\\', '\n', '\r', '\t', '\x0c', '\x08']

theorem writeChar_of_mem_lettered {c : Char} (h : c ∈ lettered) :
    ∃ e, writeChar c = ['\\', e] ∧ escaped? e = some c ∧ Text.toUnits c = [c.toNat] := by
  simp only [lettered, List.mem_cons, List.not_mem_nil, or_false] at h
  rcases h with rfl | rfl | rfl | rfl | rfl | rfl | rfl <;> exact ⟨_, rfl, rfl, rfl⟩

/-- A character denotes its units, escaped or not. -/
theorem denotesUnits_writeChar (c : Char) {text : List Char} {units : List Nat}
    (hrest : DenotesUnits text units) :
    DenotesUnits (writeChar c ++ text) (Text.toUnits c ++ units) := by
  by_cases hletter : c ∈ lettered
  · obtain ⟨e, hwrite, he, hunits⟩ := writeChar_of_mem_lettered hletter
    rw [hwrite, hunits]
    exact .letter he hrest
  · simp only [lettered, List.mem_cons, List.not_mem_nil, or_false, not_or] at hletter
    obtain ⟨hquote, hbackslash, hn, hr, ht, hf, hb⟩ := hletter
    rw [writeChar, if_neg hquote, if_neg hbackslash, if_neg hn, if_neg hr, if_neg ht, if_neg hf,
      if_neg hb]
    split
    · rename_i hprintable
      simp only [Bool.and_eq_true, decide_eq_true_eq] at hprintable
      exact .plain hprintable.1 hquote hbackslash hrest
    · exact denotesUnits_toUnits c hrest

theorem denotesUnits_flatMap_writeChar (cs : List Char) :
    DenotesUnits (cs.flatMap writeChar) (cs.flatMap Text.toUnits) := by
  induction cs with
  | nil => exact .nil
  | cons c rest ih => exact denotesUnits_writeChar c ih

theorem ofUnits_flatMap_toUnits (cs : List Char) :
    Text.ofUnits (cs.flatMap Text.toUnits) = some cs := by
  induction cs with
  | nil => rfl
  | cons c rest ih => rw [List.flatMap_cons, ofUnits_toUnits_append, ih, Option.map_some]

theorem denotesString_writeString (s : String) : DenotesString (writeString s) s := by
  have h := DenotesString.quoted (denotesUnits_flatMap_writeChar s.toList)
    (ofUnits_flatMap_toUnits s.toList)
  rwa [String.ofList_toList] at h

/-! ## Written values -/

/-- Each floating number in a value is finite and in its one form. -/
inductive Finite : Json → Prop
  | null : Finite .null
  | bool (b : Bool) : Finite (.bool b)
  | int (n : Int) : Finite (.int n)
  | float {negative : Bool} {s : Nat} {e : Int} (h : (Binary64.finite negative s e).Canonical) :
    Finite (.float (.finite negative s e))
  | str (s : String) : Finite (.str s)
  | array {js : List Json} (h : ∀ j ∈ js, Finite j) : Finite (.array js)
  | object {ms : List (String × Json)} (h : ∀ m ∈ ms, Finite m.2) : Finite (.object ms)

@[simp] theorem finite_int (n : Int) : (int n).Finite := .int n

@[simp] theorem finite_str (s : String) : (str s).Finite := .str s

@[simp]
theorem finite_array_iff {js : List Json} : (array js).Finite ↔ ∀ j ∈ js, j.Finite := by
  constructor
  · rintro ⟨⟩
    assumption
  · exact .array

@[simp]
theorem finite_object_iff {ms : List (String × Json)} :
    (object ms).Finite ↔ ∀ m ∈ ms, m.2.Finite := by
  constructor
  · rintro ⟨⟩
    assumption
  · exact .object

theorem isGap_newLine (depth : Nat) : IsGap (newLine depth) := by
  intro c hc
  rcases List.mem_cons.mp hc with rfl | hc
  · rfl
  · rw [List.eq_of_mem_replicate hc]
    rfl

theorem isGap_nil : IsGap [] := by simp [IsGap]

/-- Items on lines of their own, in front of the closing line. -/
theorem denotes_writeItems (back : Nat) {depth : Nat} {j : Json} {rest : List Json}
    (hfirst : Denotes (write depth j) (.value j))
    (hrest : ∀ j ∈ rest, Denotes (write depth j) (.value j)) :
    Denotes (newLine depth ++ write depth j ++ writeItems depth rest ++ newLine back)
      (.items (j :: rest)) := by
  induction rest generalizing j with
  | nil =>
    have h := Denotes.element (isGap_newLine depth) hfirst (isGap_newLine back)
    simpa [writeItems, List.append_assoc] using Denotes.lastItem h
  | cons next rest ih =>
    have h := Denotes.element (isGap_newLine depth) hfirst isGap_nil
    have hmore := ih (hrest next List.mem_cons_self) fun j hj => hrest j (List.mem_cons_of_mem _ hj)
    simpa [writeItems, List.append_assoc] using Denotes.item h hmore

/-- Members on lines of their own, in front of the closing line. -/
theorem denotes_writeMembers (back : Nat) {depth : Nat} {m : String × Json}
    {rest : List (String × Json)}
    (hfirst : Denotes (write depth m.2) (.value m.2))
    (hrest : ∀ m ∈ rest, Denotes (write depth m.2) (.value m.2)) :
    Denotes (newLine depth ++ writeString m.1 ++ ':' :: ' ' :: write depth m.2 ++
      writeMembers depth rest ++ newLine back) (.members (m :: rest)) := by
  have hspace : IsGap [' '] := by simp [IsGap, isGap]
  induction rest generalizing m with
  | nil =>
    have h := Denotes.member (isGap_newLine depth) (denotesString_writeString m.1) isGap_nil
      (.element hspace hfirst (isGap_newLine back))
    simpa [writeMembers, List.append_assoc] using Denotes.lastMember h
  | cons next rest ih =>
    have h := Denotes.member (isGap_newLine depth) (denotesString_writeString m.1) isGap_nil
      (.element hspace hfirst isGap_nil)
    have hmore := ih (hrest next List.mem_cons_self) fun m hm => hrest m (List.mem_cons_of_mem _ hm)
    obtain ⟨name, value⟩ := next
    simpa [writeMembers, List.append_assoc] using Denotes.nextMember h hmore

/-- What is written of a value denotes it. -/
theorem denotes_write {j : Json} (h : j.Finite) (depth : Nat) :
    Denotes (write depth j) (.value j) := by
  induction h generalizing depth with
  | null => exact .null
  | bool b =>
    cases b with
    | true => exact .yes
    | false => exact .no
  | int n =>
    have h := Denotes.int (integerLiteral n) rfl
    rwa [intOfDigits_toText_integerLiteral, toText_integerLiteral] at h
  | float h =>
    obtain ⟨n, htext, hinteger, hvalue⟩ := FloatLayout.document.exists_render_eq h
    have h := Denotes.float n hinteger
    rwa [hvalue, htext] at h
  | str s => exact .str (denotesString_writeString s)
  | @array js _ ih =>
    cases js with
    | nil => exact .emptyArray isGap_nil
    | cons first rest =>
      have h := denotes_writeItems depth (ih first List.mem_cons_self (depth + 1))
        fun j hj => ih j (List.mem_cons_of_mem _ hj) (depth + 1)
      simpa [write] using Denotes.array h
  | @object ms _ ih =>
    cases ms with
    | nil => exact .emptyObject isGap_nil
    | cons first rest =>
      obtain ⟨name, value⟩ := first
      have h := denotes_writeMembers depth (ih _ List.mem_cons_self (depth + 1))
        fun m hm => ih m (List.mem_cons_of_mem _ hm) (depth + 1)
      simpa [write] using Denotes.object h

/-- The document of a value whose floating numbers are finite denotes the value. -/
theorem isDocument_document {j : Json} (h : j.Finite) : IsDocument j.document j := by
  have hend : IsGap ['\n'] := by simp [IsGap, isGap]
  have := Denotes.element isGap_nil (denotes_write h 0) hend
  simpa [IsDocument, document] using this

end AnnotatedShader.Json
