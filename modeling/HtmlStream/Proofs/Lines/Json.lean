import HtmlStream.Printer
import HtmlStream.Proofs.Lines.Words

/-! # JSON lines

A reader of JSON that knows the grammar of objects whose values are strings, truth values and numbers,
and nothing of calls. A line that is printed for a call is one such object, and what is read of it is
the kind and the fields of the call.

* **`Json.Lexeme`**, **`Json.lex`**: the parts of a text, with strings read by `Escapes.json`.
* **`Json.Value`**, **`Json.readObject`**: the members of an object, in order.
* **`Callback.object`**: the kind and the fields of a call. **`Callback.ofObject?`**: the call they are
  of.
* **`lex_jsonQuote`**, **`lex_word`**, **`members_lexemes`**: what is read of strings, words and members.
* **`readObject_jsonLine`**: what is read of a line. -/

namespace HtmlStream

namespace Json

/-! ## (1) A reader -/

/-- The parts of a text. -/
inductive Lexeme where
  /-- The brace in front of an object. -/
  | opening
  /-- The brace behind it. -/
  | closing
  /-- Between a name and a value. -/
  | colon
  /-- Between members. -/
  | comma
  /-- A string. -/
  | text (s : String)
  /-- A number or a literal. -/
  | word (w : String)
  deriving DecidableEq, Repr

/-- Lexemes of one character. -/
def Lexeme.ofChar? : Char → Option Lexeme
  | '\x7b' => some .opening
  | '\x7d' => some .closing
  | ':' => some .colon
  | ',' => some .comma
  | _ => none

/-- White space between lexemes. -/
def isBlank (c : Char) : Bool := c = ' ' || c = '\t' || c = '\n' || c = '\r'

/-- How far a lexeme has been read. -/
inductive Lexing where
  /-- Between lexemes. -/
  | between
  /-- In a string. -/
  | inText (s : Text.Scan)
  /-- In a word. -/
  | inWord (w : String)

/-- The lexemes of a text; none if there are none. -/
def lex : Lexing → List Char → Option (List Lexeme)
  | .between, [] => some []
  | .inWord w, [] => some [.word w]
  | .inText _, [] => none
  | .between, c :: rest =>
    match Lexeme.ofChar? c with
    | some l => (lex .between rest).map (l :: ·)
    | none =>
      if c = '\x22' then lex (.inText (.plain "")) rest
      else if isBlank c then lex .between rest
      else lex (.inWord (String.singleton c)) rest
  | .inWord w, c :: rest =>
    match Lexeme.ofChar? c with
    | some l => (lex .between rest).map (.word w :: l :: ·)
    | none =>
      if c = '\x22' then none
      else if isBlank c then (lex .between rest).map (.word w :: ·)
      else lex (.inWord (w.push c)) rest
  | .inText s, c :: rest =>
    match Text.Escapes.json.step s c with
    | none => none
    | some (.closed text) => (lex .between rest).map (.text text :: ·)
    | some s => lex (.inText s) rest

/-- Values. -/
inductive Value where
  /-- A string. -/
  | text (s : String)
  /-- A truth value. -/
  | truth (b : Bool)
  /-- A number. -/
  | number (n : Nat)
  deriving DecidableEq, Repr

/-- The value of a word. -/
def Value.ofWord? (w : String) : Option Value :=
  if w = "true" then some (.truth true)
  else if w = "false" then some (.truth false)
  else (Text.readDigits? 10 0 w.toList).map .number

/-- The value of a lexeme. -/
def Value.ofLexeme? : Lexeme → Option Value
  | .text s => some (.text s)
  | .word w => ofWord? w
  | _ => none

/-- The members up to the brace behind them, with which the text ends. -/
def members : List Lexeme → Option (List (String × Value))
  | [.text name, .colon, value, .closing] => (Value.ofLexeme? value).map fun v => [(name, v)]
  | .text name :: .colon :: value :: .comma :: rest =>
    (Value.ofLexeme? value).bind fun v => (members rest).map ((name, v) :: ·)
  | _ => none

/-- The members of an object, in order; none if the text is no such object. -/
def readObject (s : String) : Option (List (String × Value)) :=
  match lex .between s.toList with
  | some [.opening, .closing] => some []
  | some (.opening :: rest) => members rest
  | _ => none

end Json

/-! ## (2) Calls as objects -/

namespace Callback

/-- The fields of a call, with their names. -/
def fields : TextCallback → List (String × Json.Value)
  | .doctype name publicId systemId quirks =>
    [("name", .text name), ("public_id", .text publicId), ("system_id", .text systemId),
      ("force_quirks", .truth quirks)]
  | .startTag name selfClosing count =>
    [("name", .text name), ("self_closing", .truth selfClosing), ("num_attrs", .number count)]
  | .tagAttr name value => [("name", .text name), ("value", .text value)]
  | .endTag name => [("name", .text name)]
  | .comment text | .chars text => [("text", .text text)]
  | .nullChar | .eof => []
  | .error message => [("message", .text message)]

/-- The kind of a call and its fields. -/
def object (call : TextCallback) : List (String × Json.Value) :=
  ("event", .text call.kind.text) :: call.fields

/-- The call that an object describes. -/
def ofObject? : List (String × Json.Value) → Option TextCallback
  | [("event", .text "doctype"), ("name", .text name), ("public_id", .text publicId),
      ("system_id", .text systemId), ("force_quirks", .truth quirks)] =>
    some (.doctype name publicId systemId quirks)
  | [("event", .text "start_tag"), ("name", .text name), ("self_closing", .truth selfClosing),
      ("num_attrs", .number count)] => some (.startTag name selfClosing count)
  | [("event", .text "tag_attr"), ("name", .text name), ("value", .text value)] =>
    some (.tagAttr name value)
  | [("event", .text "end_tag"), ("name", .text name)] => some (.endTag name)
  | [("event", .text "comment"), ("text", .text text)] => some (.comment text)
  | [("event", .text "chars"), ("text", .text text)] => some (.chars text)
  | [("event", .text "null_char")] => some .nullChar
  | [("event", .text "eof")] => some .eof
  | [("event", .text "error"), ("message", .text message)] => some (.error message)
  | _ => none

theorem ofObject?_object (call : TextCallback) : ofObject? call.object = some call := by
  cases call <;> rfl

end Callback

/-! ## (3) Lexemes of what is written -/

namespace Json

/-- **A string is one lexeme.** -/
theorem lex_inText {s : Text.Scan} {cs rest : List Char} {text : String}
    (hopen : ∀ t, s ≠ .closed t) (h : Text.Escapes.json.read s cs = some (text, rest)) :
    lex (.inText s) cs = (lex .between rest).map (.text text :: ·) := by
  induction cs generalizing s with
  | nil =>
    cases s with
    | closed t => exact absurd rfl (hopen t)
    | _ => cases h
  | cons c cs ih =>
    rw [Text.Escapes.read_cons hopen, Option.bind_eq_some_iff] at h
    obtain ⟨next, hnext, h⟩ := h
    rw [lex, hnext]
    cases next with
    | closed t =>
      rw [Text.Escapes.read_closed] at h
      cases h
      rfl
    | _ => exact ih nofun h

theorem lex_jsonQuote (s : String) (rest : List Char) :
    lex .between ((Text.jsonQuote s).toList ++ rest) = (lex .between rest).map (.text s :: ·) := by
  have hread := Text.writes_jsonChar.read_writeAll s rest
  rw [Text.jsonQuote, Text.toList_enclose, List.cons_append, List.append_assoc]
  exact lex_inText nofun hread

/-- Characters of words. -/
def isWordChar (c : Char) : Bool := (Lexeme.ofChar? c).isNone && c ≠ '\x22' && !isBlank c

section

variable {c : Char} {l : Lexeme} {w : String} {rest : List Char}

theorem lex_between_of_ofChar? (h : Lexeme.ofChar? c = some l) :
    lex .between (c :: rest) = (lex .between rest).map (l :: ·) := by
  rw [lex, h]

theorem lex_inWord_of_ofChar? (h : Lexeme.ofChar? c = some l) :
    lex (.inWord w) (c :: rest) = (lex .between (c :: rest)).map (.word w :: ·) := by
  rw [lex_between_of_ofChar? h, lex, h, Option.map_map]
  rfl

theorem lex_between_of_isWordChar (h : isWordChar c = true) :
    lex .between (c :: rest) = lex (.inWord (String.singleton c)) rest := by
  simp only [isWordChar, Bool.and_eq_true, Option.isNone_iff_eq_none, decide_eq_true_eq,
    Bool.not_eq_true'] at h
  rw [lex, h.1.1]
  simp [h.1.2, h.2]

theorem lex_inWord_of_isWordChar (h : isWordChar c = true) :
    lex (.inWord w) (c :: rest) = lex (.inWord (w.push c)) rest := by
  simp only [isWordChar, Bool.and_eq_true, Option.isNone_iff_eq_none, decide_eq_true_eq,
    Bool.not_eq_true'] at h
  rw [lex, h.1.1]
  simp [h.1.2, h.2]

end

/-- **A word is one lexeme**, if a lexeme of one character is behind it. -/
theorem lex_word {w : String} (hne : w ≠ "") (hw : ∀ c ∈ w.toList, isWordChar c = true) {d : Char}
    {l : Lexeme} (hd : Lexeme.ofChar? d = some l) (rest : List Char) :
    lex .between (w.toList ++ d :: rest) = (lex .between (d :: rest)).map (.word w :: ·) := by
  have hinside (cs : List Char) (hcs : ∀ c ∈ cs, isWordChar c = true) (w : String) :
      lex (.inWord w) (cs ++ d :: rest)
        = (lex .between (d :: rest)).map (.word (w ++ String.ofList cs) :: ·) := by
    induction cs generalizing w with
    | nil => rw [List.nil_append, lex_inWord_of_ofChar? hd, String.ofList_nil, String.append_empty]
    | cons c cs ih =>
      rw [List.forall_mem_cons] at hcs
      rw [List.cons_append, lex_inWord_of_isWordChar hcs.1, ih hcs.2, String.push_eq_append,
        String.ofList_cons, String.append_assoc]
  rw [← @String.ofList_toList w] at hne ⊢
  generalize w.toList = cs at hw hne ⊢
  cases cs with
  | nil => exact absurd String.ofList_nil hne
  | cons c cs =>
    rw [List.forall_mem_cons] at hw
    rw [String.toList_ofList, List.cons_append, lex_between_of_isWordChar hw.1, hinside cs hw.2,
      String.ofList_cons]

/-! ## (4) Objects -/

/-- A value as it is written. -/
def Value.write : Value → String
  | .text s => Text.jsonQuote s
  | .truth b => Text.truth b
  | .number n => toString n

/-- The lexeme of a value. -/
def Value.lexeme : Value → Lexeme
  | .text s => .text s
  | .truth b => .word (Text.truth b)
  | .number n => .word (toString n)

theorem ofLexeme?_lexeme (v : Value) : Value.ofLexeme? v.lexeme = some v := by
  cases v with
  | text s => rfl
  | truth b => cases b <;> rfl
  | number n =>
    have hread := Text.readDigits?_toString n
    have hne (w : String) (hw : Text.readDigits? 10 0 w.toList = none) : toString n ≠ w := by
      rintro rfl
      rw [hread] at hw
      cases hw
    rw [Value.lexeme, Value.ofLexeme?, Value.ofWord?, if_neg (hne "true" rfl),
      if_neg (hne "false" rfl), hread]
    rfl

/-- Digits belong to words. -/
theorem isWordChar_of_mem_toString {n : Nat} {c : Char} (hc : c ∈ (toString n).toList) :
    isWordChar c = true := by
  rw [Nat.toString_eq_ofList_toDigits, String.toList_ofList] at hc
  have hdigit : c.isDigit = true := Nat.isDigit_of_mem_toDigits (by omega) (by omega) hc
  have hne {d : Char} (hd : d.isDigit = false) : c ≠ d := by
    rintro rfl
    rw [hd] at hdigit
    cases hdigit
  have hnone : Lexeme.ofChar? c = none := by
    unfold Lexeme.ofChar?
    split <;> first | exact absurd rfl (hne rfl) | rfl
  have hblank : isBlank c = false := by
    simp [isBlank, hne (d := ' ') rfl, hne (d := '\t') rfl, hne (d := '\n') rfl,
      hne (d := '\r') rfl]
  simp [isWordChar, hnone, hblank, hne (d := '\x22') rfl]

/-- **A value is one lexeme**, if a lexeme of one character is behind it. -/
theorem lex_write (v : Value) {d : Char} {l : Lexeme} (hd : Lexeme.ofChar? d = some l)
    (rest : List Char) :
    lex .between (v.write.toList ++ d :: rest) = (lex .between (d :: rest)).map (v.lexeme :: ·) := by
  cases v with
  | text s => exact lex_jsonQuote s _
  | truth b =>
    cases b
    · exact lex_word (by decide) (List.all_eq_true.mp (by decide)) hd rest
    · exact lex_word (by decide) (List.all_eq_true.mp (by decide)) hd rest
  | number n =>
    refine lex_word ?_ (fun c hc => isWordChar_of_mem_toString hc) hd rest
    intro hempty
    rw [Nat.toString_eq_ofList_toDigits, String.ofList_eq_empty_iff] at hempty
    exact Nat.toDigits_ne_nil hempty

/-- **A member is three lexemes.** -/
theorem lex_member (name : String) (v : Value) {d : Char} {l : Lexeme}
    (hd : Lexeme.ofChar? d = some l) (rest : List Char) :
    lex .between ((Callback.member name v.write).toList ++ d :: rest)
      = (lex .between (d :: rest)).map ([.text name, .colon, v.lexeme] ++ ·) := by
  have htext : (Callback.member name v.write).toList ++ d :: rest
      = (Text.jsonQuote name).toList ++ ':' :: (v.write.toList ++ d :: rest) := by
    simp [Callback.member, String.toList_append]
  rw [htext, lex_jsonQuote, lex_between_of_ofChar? rfl, lex_write v hd, Option.map_map,
    Option.map_map]
  rfl

/-- The lexemes of members and the brace behind them. -/
def lexemes : List (String × Value) → List Lexeme
  | [] => [.closing]
  | [(name, v)] => [.text name, .colon, v.lexeme, .closing]
  | (name, v) :: rest => .text name :: .colon :: v.lexeme :: .comma :: lexemes rest

/-- **Members with commas between them** have these lexemes. -/
theorem lex_members {object : List (String × Value)} (h : object ≠ []) :
    lex .between ((",".intercalate (object.map fun m => Callback.member m.1 m.2.write)).toList ++ ['\x7d'])
      = some (lexemes object) := by
  induction object with
  | nil => exact absurd rfl h
  | cons m object ih =>
    cases object with
    | nil =>
      rw [List.map_cons, List.map_nil, String.intercalate_singleton, lex_member m.1 m.2 rfl]
      rfl
    | cons next object =>
      have htext : (",".intercalate ((m :: next :: object).map fun m =>
            Callback.member m.1 m.2.write)).toList ++ ['\x7d']
          = (Callback.member m.1 m.2.write).toList ++ ',' ::
            ((",".intercalate ((next :: object).map fun m => Callback.member m.1 m.2.write)).toList
              ++ ['\x7d']) := by
        rw [List.map_cons, List.map_cons, String.intercalate_cons_cons]
        simp [String.toList_append]
      rw [htext, lex_member m.1 m.2 rfl, lex_between_of_ofChar? rfl, ih (List.cons_ne_nil _ _)]
      rfl

/-- **The members are read back.** -/
theorem members_lexemes {object : List (String × Value)} (h : object ≠ []) :
    members (lexemes object) = some object := by
  induction object with
  | nil => exact absurd rfl h
  | cons m object ih =>
    cases object with
    | nil =>
      show (Value.ofLexeme? m.2.lexeme).map _ = _
      rw [ofLexeme?_lexeme]
      rfl
    | cons next object =>
      have hlexemes : lexemes (m :: next :: object)
          = .text m.1 :: .colon :: m.2.lexeme :: .comma :: lexemes (next :: object) := rfl
      rw [hlexemes, members, ofLexeme?_lexeme, ih (List.cons_ne_nil _ _)]
      rfl

/-- **An object is read back** from what is written for its members. -/
theorem readObject_write {object : List (String × Value)} (h : object ≠ []) :
    readObject ("\x7b" ++ ",".intercalate (object.map fun m => Callback.member m.1 m.2.write)
      ++ "\x7d") = some object := by
  have htext : ("\x7b" ++ ",".intercalate (object.map fun m => Callback.member m.1 m.2.write)
      ++ "\x7d").toList = '\x7b' ::
        ((",".intercalate (object.map fun m => Callback.member m.1 m.2.write)).toList ++ ['\x7d']) := by
    simp [String.toList_append]
  rw [readObject, htext, lex_between_of_ofChar? rfl, lex_members h]
  -- what is behind the brace begins with a name, so the object is not empty
  obtain ⟨m, others, rfl⟩ := List.exists_cons_of_ne_nil h
  have hmembers := members_lexemes h
  cases others <;> exact hmembers

end Json

/-! ## (5) Lines -/

/-- The members of a line are the kind and the fields of its call. -/
theorem Callback.jsonLine_eq (call : TextCallback) :
    call.jsonLine = "\x7b" ++ ",".intercalate (call.object.map fun m => member m.1 m.2.write)
      ++ "\x7d" := by
  unfold jsonLine
  cases call <;> rfl

/-- **What is read of a line** is the kind and the fields of its call. -/
theorem readObject_jsonLine (call : TextCallback) :
    Json.readObject call.jsonLine = some call.object := by
  rw [Callback.jsonLine_eq]
  exact Json.readObject_write (List.cons_ne_nil _ _)

/-- **A JSON line determines the call.** -/
theorem jsonLine_inj {call call' : TextCallback} (h : call.jsonLine = call'.jsonLine) :
    call = call' := by
  have hobject := readObject_jsonLine call
  rw [h, readObject_jsonLine, Option.some.injEq] at hobject
  have hcall := Callback.ofObject?_object call
  rw [← hobject, Callback.ofObject?_object, Option.some.injEq] at hcall
  exact hcall.symm

/-- **A JSON line has no newline in it.** -/
theorem newline_notMem_jsonLine (call : TextCallback) : '\n' ∉ call.jsonLine.toList := by
  have hvalue (v : Json.Value) : '\n' ∉ v.write.toList := by
    cases v with
    | text s => exact Text.newline_notMem_jsonQuote s
    | truth b => exact Text.newline_notMem_truth b
    | number n => exact newline_notMem_toString n
  have hmember (m : String × Json.Value) : '\n' ∉ (Callback.member m.1 m.2.write).toList :=
    Text.newline_notMem_append (Text.newline_notMem_append (Text.newline_notMem_jsonQuote m.1)
      (by decide)) (hvalue m.2)
  rw [Callback.jsonLine_eq]
  refine Text.newline_notMem_append (Text.newline_notMem_append (by decide)
    (Text.newline_notMem_intercalate (by decide) ?_)) (by decide)
  rw [List.forall_mem_map]
  exact fun m _ => hmember m

end HtmlStream
