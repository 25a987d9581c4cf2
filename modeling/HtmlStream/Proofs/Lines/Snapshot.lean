import HtmlStream.Proofs.Lines.Heard
import HtmlStream.Proofs.Machine.Attributes
import HtmlStream.Proofs.Stream
import HtmlStream.Snapshot

/-! # Snapshot lines say what was heard

A recording writes one line for each call, or for a start tag with its attributes. The line of a tag
ends where the attributes do: an attribute ends at a quotation mark, and behind the last one stands no
space. So a recording can go wrong only for a tag with more attributes than there can be room for, and
its lines determine the calls.

* **`Entry`**: what one line records. **`exists_entries`**: the calls of a session are those of entries.
* **`foldlM_receive`**, **`recordLines_eq`**: what is recorded of entries.
* **`attributes_append_inj`**, **`Entry.line_inj`**: a line determines its entry.
* **`recording_faithful`**: a recording says what was heard. -/

namespace HtmlStream

/-! ## (1) Entries -/

/-- The line of a call that stands alone in it. Start tags and attributes do not. -/
def Callback.snapshotLine : TextCallback → String
  | .doctype name publicId systemId quirks =>
    "DOCTYPE name=" ++ Text.snapshotQuote name ++ " public_id=" ++ Text.snapshotQuote publicId ++
      " system_id=" ++ Text.snapshotQuote systemId ++ " force_quirks=" ++ Text.truth quirks
  | .endTag name => "END name=" ++ name
  | .comment text => "COMMENT text=" ++ Text.snapshotQuote text
  | .chars text => "CHAR text=" ++ Text.snapshotQuote text
  | .nullChar => "NULL"
  | .eof => "EOF"
  | .error message => "ERROR " ++ message
  | .startTag .. | .tagAttr .. => ""

/-- An attribute as it is written in the line of its tag. -/
def attributeText (a : String × String) : String := a.1 ++ "=" ++ Text.snapshotQuote a.2

/-- **What one line records.** -/
inductive Entry where
  /-- A start tag and its attributes. -/
  | tag (name : String) (selfClosing : Bool) (attributes : List (String × String))
  /-- Another call. -/
  | other (call : TextCallback)

namespace Entry

/-- Its calls. -/
def calls : Entry → List TextCallback
  | .tag name selfClosing attributes =>
    .startTag name selfClosing attributes.length :: attributes.map fun a => .tagAttr a.1 a.2
  | .other call => [call]

/-- The kind of its first call. -/
def kind : Entry → CallbackKind
  | .tag .. => .startTag
  | .other call => call.kind

/-- The attributes that are announced in it. -/
def announced : Entry → Nat
  | .tag _ _ attributes => attributes.length
  | .other _ => 0

/-- Its line. -/
def line : Entry → String
  | .tag name selfClosing attributes =>
    OpenTag.line
      { name, selfClosing, remaining := 0, attributes := (attributes.map attributeText).toArray }
  | .other call => call.snapshotLine

/-- **An entry that can be told apart from others**: a call that stands alone belongs to no start tag,
and all calls fit in lines. -/
structure Sound (e : Entry) : Prop where
  /-- A call that stands alone is no start tag and no attribute. -/
  alone : ∀ call, e = .other call → call.kind ≠ .startTag ∧ call.kind ≠ .tagAttr
  /-- Each call fits in a line. -/
  fits : ∀ call ∈ e.calls, call.FitsLine

end Entry

/-- **Grouped calls** are those of entries. -/
theorem exists_entries {calls : List TextCallback} (h : Grouped calls)
    (hfits : ∀ call ∈ calls, call.FitsLine) :
    ∃ entries : List Entry, calls = entries.flatMap Entry.calls ∧ ∀ e ∈ entries, e.Sound := by
  induction h with
  | nil => exact ⟨[], rfl, by simp⟩
  | @tag name selfClosing attributes rest _ ih =>
    rw [List.forall_mem_append] at hfits
    obtain ⟨entries, hrest, hsound⟩ := ih hfits.2
    refine ⟨.tag name selfClosing attributes :: entries, ?_, ?_⟩
    · rw [hrest]
      rfl
    · rw [List.forall_mem_cons]
      exact ⟨⟨nofun, hfits.1⟩, hsound⟩
  | @other call rest hstart hattr _ ih =>
    rw [List.forall_mem_cons] at hfits
    obtain ⟨entries, hrest, hsound⟩ := ih hfits.2
    refine ⟨.other call :: entries, ?_, ?_⟩
    · rw [hrest]
      rfl
    · rw [List.forall_mem_cons]
      refine ⟨⟨?_, ?_⟩, hsound⟩
      · rintro _ ⟨⟩
        exact ⟨hstart, hattr⟩
      · intro call' hcall'
        rw [List.mem_singleton.mp hcall']
        exact hfits.1

/-! ## (2) Recording -/

section

variable {r : Recorder}

/-- A tag with one more attribute. -/
def OpenTag.put (t : OpenTag) (a : String × String) : OpenTag :=
  { t with remaining := t.remaining - 1, attributes := t.attributes.push (attributeText a) }

theorem OpenTag.foldl_put (t : OpenTag) (attributes : List (String × String)) :
    attributes.foldl put t = { t with
      remaining := t.remaining - attributes.length
      attributes := t.attributes ++ (attributes.map attributeText).toArray } := by
  induction attributes generalizing t with
  | nil => simp
  | cons a rest ih =>
    rw [List.foldl_cons, ih, put]
    simp [Nat.sub_sub, Nat.add_comm]

/-- **Attributes that were announced** go into their tag, which is written with the last of them. -/
theorem foldlM_attributes (t : OpenTag) {attributes : List (String × String)} (hne : attributes ≠ [])
    (hremaining : t.remaining = attributes.length) :
    (attributes.map fun a => (.tagAttr a.1 a.2 : TextCallback)).foldlM Recorder.receive
        { r with openTag := some t }
      = .ok (Recorder.write { r with openTag := none } (attributes.foldl OpenTag.put t).line) := by
  induction attributes generalizing t with
  | nil => exact absurd rfl hne
  | cons a rest ih =>
    have hreceive : Recorder.receive { r with openTag := some t } (.tagAttr a.1 a.2)
        = if (t.put a).remaining = 0 then
            .ok (Recorder.write { r with openTag := none } (t.put a).line)
          else .ok { r with openTag := some (t.put a) } := rfl
    have hput : (t.put a).remaining = rest.length := by
      rw [OpenTag.put, hremaining, List.length_cons, Nat.add_sub_cancel]
    rw [List.map_cons, List.foldlM_cons, hreceive, hput, List.foldl_cons]
    cases rest with
    | nil => rfl
    | cons b rest => exact ih (t.put a) (List.cons_ne_nil b rest) hput

/-- **An entry is recorded as its line**, if there is room for its attributes. -/
theorem foldlM_receive_entry {e : Entry} (hsound : e.Sound) (hclosed : r.openTag = none) :
    e.calls.foldlM Recorder.receive r
      = if OpenTag.capacity < e.announced then .error .noRoom else .ok (r.write e.line) := by
  cases e with
  | tag name selfClosing attributes =>
    have hreceive : Recorder.receive r (.startTag name selfClosing attributes.length)
        = if OpenTag.capacity < attributes.length then .error .noRoom
          else if attributes.length = 0 then
            .ok (r.write (OpenTag.line { name, selfClosing, remaining := attributes.length }))
          else .ok { r with openTag := some { name, selfClosing, remaining := attributes.length } } :=
      rfl
    rw [Entry.announced, Entry.calls, List.foldlM_cons, hreceive]
    split
    · rfl
    · cases attributes with
      | nil => rfl
      | cons a rest =>
        have hrest := foldlM_attributes (r := r)
          { name, selfClosing, remaining := (a :: rest).length } (List.cons_ne_nil a rest) rfl
        have hr : { r with openTag := none } = r := by rw [← hclosed]
        rw [OpenTag.foldl_put, hr, Nat.sub_self, Array.empty_append] at hrest
        exact hrest
  | other call =>
    obtain ⟨hstart, hattr⟩ := hsound.alone call rfl
    cases call with
    | startTag name selfClosing count => exact absurd rfl hstart
    | tagAttr name value => exact absurd rfl hattr
    | _ => rfl

/-- **Entries are recorded as their lines**, if there is room for the attributes of each. -/
theorem foldlM_receive {entries : List Entry} (hsound : ∀ e ∈ entries, e.Sound)
    (hclosed : r.openTag = none) :
    (entries.flatMap Entry.calls).foldlM Recorder.receive r
      = if ∃ e ∈ entries, OpenTag.capacity < e.announced then .error .noRoom
        else .ok { r with lines := r.lines ++ (entries.map Entry.line).toArray } := by
  induction entries generalizing r with
  | nil =>
    simp
    rfl
  | cons e rest ih =>
    rw [List.forall_mem_cons] at hsound
    rw [List.flatMap_cons, List.foldlM_append, foldlM_receive_entry hsound.1 hclosed]
    by_cases hroom : OpenTag.capacity < e.announced
    · have hexists : ∃ e' ∈ e :: rest, OpenTag.capacity < e'.announced :=
        ⟨e, List.mem_cons_self, hroom⟩
      rw [if_pos hroom, if_pos hexists]
      rfl
    · have hwrite : (r.write e.line).openTag = none := hclosed
      rw [if_neg hroom]
      show (rest.flatMap Entry.calls).foldlM Recorder.receive (r.write e.line) = _
      rw [ih hsound.2 hwrite]
      refine if_congr (by simp [hroom]) rfl ?_
      simp [Recorder.write]

/-- **A recording of entries** fails only if there is no room for attributes that are announced. -/
theorem recordLines_entries {entries : List Entry} (hsound : ∀ e ∈ entries, e.Sound) :
    recordLines (entries.flatMap Entry.calls)
      = if ∃ e ∈ entries, OpenTag.capacity < e.announced then .error .noRoom
        else .ok (entries.map Entry.line) := by
  rw [recordLines, foldlM_receive hsound rfl]
  split
  · rfl
  · show Recorder.finish { lines := #[] ++ (entries.map Entry.line).toArray } = _
    simp [Recorder.finish]

/-- If there is room, the lines are those of the entries. -/
theorem eq_map_of_recordLines {entries : List Entry} (hsound : ∀ e ∈ entries, e.Sound)
    {lines : List String} (h : recordLines (entries.flatMap Entry.calls) = .ok lines) :
    lines = entries.map Entry.line := by
  rw [recordLines_entries hsound] at h
  split at h
  · cases h
  · exact (Except.ok.inj h).symm

end

/-! ## (3) Lines -/

/-- The attributes of a tag in its line, and what stands behind them. -/
def attributesText (attributes : List (String × String)) (rest : List Char) : List Char :=
  (" ".intercalate (attributes.map attributeText)).toList ++ ("] self_closing=".toList ++ rest)

/-- Behind the first attribute stands a space or what stands behind the last. -/
theorem attributesText_cons (a : String × String) (attributes : List (String × String))
    (rest : List Char) : attributesText (a :: attributes) rest
      = (attributeText a).toList ++
        match attributes with
        | [] => "] self_closing=".toList ++ rest
        | _ :: _ => ' ' :: attributesText attributes rest := by
  cases attributes with
  | nil => rw [attributesText, List.map_cons, List.map_nil, String.intercalate_singleton]
  | cons b attributes =>
    rw [attributesText, attributesText, List.map_cons, List.map_cons, String.intercalate_cons_cons]
    simp [String.toList_append]

section

variable {a a' : String × String} {attributes attributes' : List (String × String)}
  {rest rest' : List Char}

/-- **An attribute ends** at the second quotation mark that is not part of its value. -/
theorem attributeText_append_inj (h : IsAttributeName a.1) (h' : IsAttributeName a'.1)
    (heq : (attributeText a).toList ++ rest = (attributeText a').toList ++ rest') :
    a = a' ∧ rest = rest' := by
  simp only [attributeText, String.toList_append, List.append_assoc] at heq
  obtain ⟨hname, hvalue⟩ := IsAttributeName.append_inj h h' heq
  obtain ⟨htext, hrest⟩ := Text.snapshotQuote_append_inj hvalue
  exact ⟨Prod.ext hname htext, hrest⟩

/-- **No attribute looks like the end** of a line. -/
theorem attributesText_nil_ne (h : IsAttributeName a.1) :
    attributesText [] rest ≠ attributesText (a :: attributes) rest' := by
  intro heq
  have hspace := notMem_of_isAttributeName h (c := ' ') rfl
  obtain ⟨first, others, hname, -, -⟩ := h
  -- a space is the second character of the end, and there is none up to the `=` behind a name
  rw [attributesText_cons, attributeText, String.toList_append, String.toList_append, hname,
    List.append_assoc, List.append_assoc] at heq
  rw [hname] at hspace
  have hbehind := (List.cons.inj heq).2
  cases others with
  | nil => exact absurd (List.cons.inj hbehind).1 (by decide)
  | cons c others =>
    refine hspace (List.mem_cons_of_mem first ?_)
    rw [← (List.cons.inj hbehind).1]
    exact List.mem_cons_self

/-- **The attributes of a tag** end where its line says. -/
theorem attributesText_inj (h : ∀ a ∈ attributes, IsAttributeName a.1)
    (h' : ∀ a ∈ attributes', IsAttributeName a.1)
    (heq : attributesText attributes rest = attributesText attributes' rest') :
    attributes = attributes' ∧ rest = rest' := by
  induction attributes generalizing attributes' with
  | nil =>
    cases attributes' with
    | nil => exact ⟨rfl, List.append_cancel_left heq⟩
    | cons a' attributes' => exact absurd heq (attributesText_nil_ne (h' a' List.mem_cons_self))
  | cons a attributes ih =>
    rw [List.forall_mem_cons] at h
    cases attributes' with
    | nil => exact absurd heq.symm (attributesText_nil_ne h.1)
    | cons a' attributes' =>
      rw [List.forall_mem_cons] at h'
      rw [attributesText_cons, attributesText_cons] at heq
      obtain ⟨rfl, hbehind⟩ := attributeText_append_inj h.1 h'.1 heq
      -- behind the attribute stands the next one or the end, on both sides the same
      cases attributes with
      | nil =>
        cases attributes' with
        | nil => exact ⟨rfl, List.append_cancel_left hbehind⟩
        | cons b' attributes' => exact absurd (List.cons.inj hbehind).1 (by decide)
      | cons b attributes =>
        cases attributes' with
        | nil => exact absurd (List.cons.inj hbehind).1 (by decide)
        | cons b' attributes' =>
          obtain ⟨hattributes, hrest⟩ := ih h.2 h'.2 (List.cons.inj hbehind).2
          exact ⟨congrArg (a :: ·) hattributes, hrest⟩

end

/-- What stands in front of the first space of a line. -/
def CallbackKind.snapshotWord : CallbackKind → String
  | .doctype => "DOCTYPE"
  | .startTag => "START"
  | .tagAttr => ""
  | .endTag => "END"
  | .comment => "COMMENT"
  | .chars => "CHAR"
  | .nullChar => "NULL"
  | .eof => "EOF"
  | .error => "ERROR"

theorem CallbackKind.snapshotWord_inj {kind kind' : CallbackKind}
    (h : kind.snapshotWord = kind'.snapshotWord) : kind = kind' := by
  cases kind <;> cases kind' <;> first | rfl | exact absurd h (by decide)

/-- **A line determines its call**, if the call stands alone. -/
theorem snapshotLine_inj {call call' : TextCallback} (h : call.FitsLine) (h' : call'.FitsLine)
    (hkind : call.kind = call'.kind) (hstart : call.kind ≠ .startTag) (hattr : call.kind ≠ .tagAttr)
    (heq : call.snapshotLine.toList = call'.snapshotLine.toList) : call = call' := by
  unfold Callback.snapshotLine at heq
  cases call with
  | doctype name publicId systemId quirks =>
    cases call' with
    | doctype name' publicId' systemId' quirks' =>
      simp only [String.toList_append, List.append_assoc] at heq
      obtain ⟨rfl, hpublic⟩ := Text.snapshotQuote_append_inj (List.append_cancel_left heq)
      obtain ⟨rfl, hsystem⟩ := Text.snapshotQuote_append_inj (List.append_cancel_left hpublic)
      obtain ⟨rfl, hquirks⟩ := Text.snapshotQuote_append_inj (List.append_cancel_left hsystem)
      rw [Text.truth_inj (List.append_cancel_left hquirks)]
    | _ => cases hkind
  | startTag name selfClosing count => exact absurd rfl hstart
  | tagAttr name value => exact absurd rfl hattr
  | endTag name =>
    cases call' with
    | endTag name' =>
      simp only [String.toList_append] at heq
      rw [String.toList_inj.mp (List.append_cancel_left heq)]
    | _ => cases hkind
  | comment text =>
    cases call' with
    | comment text' =>
      simp only [String.toList_append] at heq
      rw [Text.snapshotQuote_inj (List.append_cancel_left heq)]
    | _ => cases hkind
  | chars text =>
    cases call' with
    | chars text' =>
      simp only [String.toList_append] at heq
      rw [Text.snapshotQuote_inj (List.append_cancel_left heq)]
    | _ => cases hkind
  | nullChar =>
    cases call' with
    | nullChar => rfl
    | _ => cases hkind
  | eof =>
    cases call' with
    | eof => rfl
    | _ => cases hkind
  | error message =>
    cases call' with
    | error message' =>
      simp only [String.toList_append] at heq
      rw [String.toList_inj.mp (List.append_cancel_left heq)]
    | _ => cases hkind

namespace Entry

variable {e e' : Entry}

theorem takeWhile_line (h : e.Sound) :
    e.line.toList.takeWhile (· ≠ ' ') = e.kind.snapshotWord.toList := by
  cases e with
  | tag name selfClosing attributes => simp [line, OpenTag.line, kind, CallbackKind.snapshotWord]
  | other call =>
    obtain ⟨hstart, hattr⟩ := h.alone call rfl
    unfold line Callback.snapshotLine
    cases call with
    | startTag name selfClosing count => exact absurd rfl hstart
    | tagAttr name value => exact absurd rfl hattr
    | _ => simp [kind, Callback.kind, CallbackKind.snapshotWord]

/-- The attributes of a tag have names. -/
theorem names_of_sound {name : String} {selfClosing : Bool} {attributes : List (String × String)}
    (h : (Entry.tag name selfClosing attributes).Sound) : ∀ a ∈ attributes, IsAttributeName a.1 := by
  intro a ha
  exact (h.fits (.tagAttr a.1 a.2) (List.mem_cons_of_mem _ (List.mem_map_of_mem ha))).normalised

/-- **A line determines its entry.** -/
theorem line_inj (h : e.Sound) (h' : e'.Sound) (heq : e.line = e'.line) : e = e' := by
  have hkind : e.kind = e'.kind := by
    refine CallbackKind.snapshotWord_inj (String.toList_inj.mp ?_)
    rw [← takeWhile_line h, heq, takeWhile_line h']
  rw [← String.toList_inj] at heq
  -- the kinds are the same, and the parts of the line are read one after another
  cases e with
  | tag name selfClosing attributes =>
    cases e' with
    | tag name' selfClosing' attributes' =>
      simp only [line, OpenTag.line, String.toList_append, List.append_assoc] at heq
      have hname := (h.fits _ List.mem_cons_self).normalised
      have hname' := (h'.fits _ List.mem_cons_self).normalised
      obtain ⟨rfl, hattributes⟩ := IsTagName.append_inj hname hname' (List.append_cancel_left heq)
      obtain ⟨rfl, hclosing⟩ := attributesText_inj (names_of_sound h) (names_of_sound h')
        (@List.append_cancel_left _ "attrs=[".toList _ _ hattributes)
      rw [Text.truth_inj hclosing]
    | other call' => exact absurd hkind.symm (h'.alone call' rfl).1
  | other call =>
    cases e' with
    | tag name' selfClosing' attributes' => exact absurd hkind (h.alone call rfl).1
    | other call' =>
      have hfits := h.fits call List.mem_cons_self
      have hfits' := h'.fits call' List.mem_cons_self
      obtain ⟨hstart, hattr⟩ := h.alone call rfl
      rw [snapshotLine_inj hfits hfits' hkind hstart hattr heq]

/-- **A line has no newline in it.** -/
theorem newline_notMem_line (h : e.Sound) : '\n' ∉ e.line.toList := by
  have happend {s t : String} := Text.newline_notMem_append (s := s) (t := t)
  cases e with
  | tag name selfClosing attributes =>
    have hname : '\n' ∉ name.toList :=
      notMem_of_isTagName (h.fits _ List.mem_cons_self).normalised rfl
    have hattributes : '\n' ∉ (" ".intercalate (attributes.map attributeText)).toList := by
      refine Text.newline_notMem_intercalate (by decide) ?_
      rw [List.forall_mem_map]
      intro a ha
      exact happend (happend (notMem_of_isAttributeName (names_of_sound h a ha) rfl) (by decide))
        (Text.newline_notMem_snapshotQuote a.2)
    exact happend (happend (happend (happend (happend (by decide) hname) (by decide)) hattributes)
      (by decide)) (Text.newline_notMem_truth selfClosing)
  | other call =>
    have hfits := h.fits call List.mem_cons_self
    unfold line Callback.snapshotLine
    cases call with
    | doctype name publicId systemId quirks =>
      exact happend (happend (happend (happend (happend (happend (happend (by decide)
        (Text.newline_notMem_snapshotQuote name)) (by decide))
        (Text.newline_notMem_snapshotQuote publicId)) (by decide))
        (Text.newline_notMem_snapshotQuote systemId)) (by decide)) (Text.newline_notMem_truth quirks)
    | endTag name => exact happend (by decide) (notMem_of_isTagName hfits.normalised rfl)
    | comment text | chars text =>
      exact happend (by decide) (Text.newline_notMem_snapshotQuote text)
    | error message => exact happend (by decide) ((hfits.message message rfl).notMem (by decide))
    | startTag name selfClosing count | tagAttr name value => simp
    | nullChar | eof => decide

/-- **An entry is one call that is no attribute**, with those of its attributes. -/
theorem countP_calls (h : e.Sound) : e.calls.countP (·.kind ≠ .tagAttr) = 1 := by
  cases e with
  | tag name selfClosing attributes =>
    have hattributes : (attributes.map fun a => (.tagAttr a.1 a.2 : TextCallback)).countP
        (·.kind ≠ .tagAttr) = 0 := by
      simp [List.countP_eq_zero, Callback.kind]
    rw [calls, List.countP_cons, hattributes]
    rfl
  | other call =>
    rw [calls, List.countP_singleton, if_pos (by simpa using (h.alone call rfl).2)]

end Entry

theorem countP_entries {entries : List Entry} (h : ∀ e ∈ entries, e.Sound) :
    (entries.flatMap Entry.calls).countP (·.kind ≠ .tagAttr) = entries.length := by
  induction entries with
  | nil => rfl
  | cons e rest ih =>
    rw [List.forall_mem_cons] at h
    rw [List.flatMap_cons, List.countP_append, Entry.countP_calls h.1, ih h.2, List.length_cons,
      Nat.add_comm]

/-! ## (4) Recordings -/

namespace Hearing

variable (h h' : Hearing)

/-- **The calls that are heard** are those of entries. -/
theorem exists_entries : ∃ entries : List Entry,
    h.calls = entries.flatMap Entry.calls ∧ ∀ e ∈ entries, e.Sound := by
  refine HtmlStream.exists_entries ?_ fun call hcall => h.fitsLine hcall
  rw [calls_eq]
  exact grouped_calls h.config _

/-- **No start tag announces more attributes than there are bytes.** -/
theorem announced_le {name : String} {selfClosing : Bool} {count : Nat}
    (hcall : .startTag name selfClosing count ∈ h.calls) : count ≤ h.input.length := by
  rw [calls_eq] at hcall
  obtain ⟨t, ht, hcall⟩ := List.mem_flatMap.mp hcall
  have hwhole := attributeCount_le h.config h.input (h.tokens_subset ht)
  cases t with
  | tag tag =>
    rw [Token.callbacks, Tag.callbacks] at hcall
    cases hkind : tag.kind with
    | opening =>
      simp only [hkind, List.mem_cons, Callback.startTag.injEq, List.mem_map, reduceCtorEq, and_false,
        exists_false, or_false] at hcall
      rw [hcall.2.2]
      exact hwhole
    | closing => simp [hkind] at hcall
  | _ => simp [Token.callbacks] at hcall

/-- So no entry does. -/
theorem announced_le_of_mem {entries : List Entry} (hcalls : h.calls = entries.flatMap Entry.calls)
    {e : Entry} (he : e ∈ entries) : e.announced ≤ h.input.length := by
  cases e with
  | tag name selfClosing attributes =>
    have hcall : .startTag name selfClosing attributes.length ∈ h.calls := by
      rw [hcalls]
      exact List.mem_flatMap.mpr ⟨_, he, List.mem_cons_self⟩
    exact h.announced_le hcall
  | other call => exact Nat.zero_le _

/-- **What a recording of what is heard is to be.** -/
structure Recorded : Prop where
  /-- It comes to its end, unless the input is longer than a tag could have attributes. -/
  ends : h.input.length ≤ OpenTag.capacity → ∃ lines, recordLines h.calls = .ok lines
  /-- However long the input is, it fails of nothing but the room for attributes. -/
  fails : ∀ fault, recordLines h.calls = .error fault → fault = .noRoom
  /-- It does not end inside a start tag. -/
  finishes : ∀ r, h.calls.foldlM Recorder.receive {} = .ok r → r.finish = .ok r.lines.toList
  /-- It has one line for each call that is no attribute. -/
  length : ∀ lines, recordLines h.calls = .ok lines →
    lines.length = h.calls.countP (·.kind ≠ .tagAttr)
  /-- No line has a newline in it. -/
  newline : ∀ lines, recordLines h.calls = .ok lines → ∀ line ∈ lines, '\n' ∉ line.toList

theorem recorded : h.Recorded := by
  obtain ⟨entries, hcalls, hsound⟩ := h.exists_entries
  have hfold := foldlM_receive (r := {}) hsound rfl
  have hlines := recordLines_entries hsound
  constructor
  case ends =>
    intro hlength
    refine ⟨entries.map Entry.line, ?_⟩
    rw [hcalls, hlines, if_neg]
    rintro ⟨e, he, hroom⟩
    exact absurd (h.announced_le_of_mem hcalls he) (by omega)
  case fails =>
    intro fault hfault
    rw [hcalls, hlines] at hfault
    split at hfault
    · cases hfault
      rfl
    · cases hfault
  case finishes =>
    intro r hr
    rw [hcalls, hfold] at hr
    split at hr
    · cases hr
    · cases hr
      rfl
  case length =>
    intro lines hl
    rw [hcalls] at hl ⊢
    rw [eq_map_of_recordLines hsound hl, countP_entries hsound, List.length_map]
  case newline =>
    intro lines hl
    rw [hcalls] at hl
    rw [eq_map_of_recordLines hsound hl, List.forall_mem_map]
    exact fun e he => Entry.newline_notMem_line (hsound e he)

end Hearing

/-- **Recordings say what was heard**, whatever is requested of which surface and for any configuration.
A recording goes on to the end, unless the input is longer than a tag could have attributes, and does not
end inside a start tag; it has one line for each call that is no attribute, without a newline in it; and
two recordings have the same lines just if the same was heard. No two texts are escaped alike. -/
theorem recordings_faithful (h h' : Hearing) :
    h.Recorded ∧
      (∀ lines lines', recordLines h.calls = .ok lines → recordLines h'.calls = .ok lines' →
        (lines = lines' ↔ h.calls = h'.calls)) ∧
      Function.Injective Text.escape := by
  refine ⟨h.recorded, ?_, fun s s' hescape => Text.escape_inj hescape⟩
  obtain ⟨entries, hcalls, hsound⟩ := h.exists_entries
  obtain ⟨entries', hcalls', hsound'⟩ := h'.exists_entries
  intro lines lines' hlines hlines'
  refine ⟨?_, ?_⟩
  · intro hequal
    rw [hcalls] at hlines ⊢
    rw [hcalls'] at hlines' ⊢
    rw [eq_map_of_recordLines hsound hlines, eq_map_of_recordLines hsound' hlines'] at hequal
    rw [eq_of_map_eq (fun e he e' he' heq =>
      Entry.line_inj (hsound e he) (hsound' e' he') heq) hequal]
  · intro heard
    rw [heard, hlines', Except.ok.injEq] at hlines
    exact hlines.symm

/-- `<a ]>`: an attribute that looks like the end of the others. -/
def Hearing.bracket : Hearing := ⟨.borrowed, {}, [.feed [0x3C, 0x61, 0x20, 0x5D, 0x3E], .finish]⟩

/-- `<a>`, in two chunks. -/
def Hearing.bare : Hearing := ⟨.shared, {}, [.feed [0x3C, 0x61], .feed [0x3E], .finish]⟩

theorem recordings_of_bracket :
    Hearing.bracket.Recorded ∧
      recordLines Hearing.bracket.calls
        = .ok ["START name=a attrs=[]=\x22\x22] self_closing=false", "EOF"] ∧
      recordLines Hearing.bare.calls = .ok ["START name=a attrs=[] self_closing=false", "EOF"] ∧
      (["START name=a attrs=[]=\x22\x22] self_closing=false", "EOF"]
          = ["START name=a attrs=[] self_closing=false", "EOF"] ↔
        Hearing.bracket.calls = Hearing.bare.calls) := by
  have hlines : recordLines Hearing.bracket.calls
      = .ok ["START name=a attrs=[]=\x22\x22] self_closing=false", "EOF"] := by decide +kernel
  have hlines' : recordLines Hearing.bare.calls
      = .ok ["START name=a attrs=[] self_closing=false", "EOF"] := by decide +kernel
  have hfaithful := recordings_faithful Hearing.bracket Hearing.bare
  exact ⟨hfaithful.1, hlines, hlines', hfaithful.2.1 _ _ hlines hlines'⟩

end HtmlStream
