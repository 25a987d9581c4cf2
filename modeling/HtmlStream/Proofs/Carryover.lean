import HtmlStream.Proofs.Requests
import HtmlStream.Proofs.Machine.Reading

/-! # What is carried over

A machine goes on as long as it can. Between two chunks it has read all text that has arrived, unless a
keyword of the syntax has begun and may still be completed or not; and of the bytes nothing is left but
an unfinished sequence. So what is carried over from chunk to chunk is a few bytes, whatever comes.

* **`Keyword.Begun`**: text that is a beginning of a keyword. `Begun.utf8Len_lt`: it is shorter.
* **`Machine.waits_cases`**: where a machine waits, and what for.
* **`Machine.CarriesText`**, **`Machine.Carries`**: what a machine may carry over.
* **`carries_after`**: after any requests it carries over no more. -/

namespace HtmlStream

/-! ## (1) Keywords that have begun -/

/-- The form in which a character is compared with those of a keyword. -/
def Keyword.fold (keyword : Keyword) : Char → Char :=
  match keyword.anyCase with
  | true => Char.toLower
  | false => id

/-- **The keyword has begun**: the text is a beginning of it, in any case of letters if that does not
matter, and not all of it. -/
def Keyword.Begun (keyword : Keyword) (text : List Char) : Prop :=
  text.map keyword.fold <+: keyword.text.toList ∧ text.map keyword.fold ≠ keyword.text.toList

/-- A comparison is undecided only while the text is a beginning of the keyword. -/
theorem Lookahead.begins_of_undecided {same : Char → Char → Bool} {fold : Char → Char}
    (hsame : ∀ k c, same k c = true → fold c = k) {finished : Bool} {keyword text : List Char}
    (h : compare same finished keyword text = .undecided) :
    text.map fold <+: keyword ∧ text.map fold ≠ keyword := by
  -- induction on the keyword; what has been compared is the same in both
  induction keyword generalizing text with
  | nil => cases h
  | cons k keyword ih =>
    cases text with
    | nil => simp
    | cons c text =>
      rw [compare] at h
      split at h
      · rename_i hk
        obtain ⟨hbegins, hne⟩ := ih h
        rw [List.map_cons, hsame k c hk]
        exact ⟨(List.prefix_cons_inj k).mpr hbegins, fun heq => hne (List.tail_eq_of_cons_eq heq)⟩
      · cases h

namespace Keyword

variable {keyword : Keyword}

theorem fold_eq_of_same {k c : Char} (h : keyword.same k c = true) : keyword.fold c = k := by
  unfold same at h
  unfold fold
  cases hcase : keyword.anyCase with
  | true =>
    rw [hcase] at h
    exact (of_decide_eq_true h).symm
  | false =>
    rw [hcase] at h
    exact (of_decide_eq_true h).symm

/-- In front of its first character a keyword has begun. -/
theorem begun_nil (h : keyword.text ≠ "") : keyword.Begun [] :=
  ⟨List.nil_prefix, fun heq => h (String.toList_eq_nil_iff.mp heq.symm)⟩

/-- **While a keyword is undecided it has begun.** -/
theorem begun_of_undecided {i : Input}
    (h : i.lookahead keyword.same keyword.text = .undecided) : keyword.Begun i.pending :=
  Lookahead.begins_of_undecided (fun k c (hk : keyword.same k c = true) => fold_eq_of_same hk) h

/-- Characters that are compared as ASCII characters are such. -/
theorem utf8Size_of_fold {c : Char} (h : (keyword.fold c).utf8Size = 1) : c.utf8Size = 1 := by
  cases hcase : keyword.anyCase with
  | true =>
    simp only [fold, hcase] at h
    by_contra hc
    rw [Guarded.toLower_of_not_ascii hc] at h
    exact hc h
  | false =>
    simp only [fold, hcase] at h
    exact h

/-- **A keyword that has begun** has more bytes than the text. -/
theorem Begun.utf8Len_lt {text : List Char} (h : keyword.Begun text)
    (hadmits : ∀ k ∈ keyword.text.toList, Guarded.Admits keyword k) :
    String.utf8Len text < keyword.text.toList.length := by
  obtain ⟨hbegins, hne⟩ := h
  have hascii : ∀ c ∈ text, c.utf8Size = 1 := by
    intro c hc
    have hmem : keyword.fold c ∈ keyword.text.toList :=
      hbegins.subset (List.mem_map_of_mem hc)
    exact utf8Size_of_fold (hadmits _ hmem).1
  have hle := hbegins.length_le
  have hlength : (text.map keyword.fold).length ≠ keyword.text.toList.length :=
    fun heq => hne (hbegins.eq_of_length heq)
  rw [List.length_map] at hle hlength
  rw [Guarded.utf8Len_of_ascii hascii]
  omega

end Keyword

/-! ## (2) Machines that wait -/

namespace Machine

variable {m : Machine}

theorem begun_of_stepMarkupDeclarationOpen (h : m.stepMarkupDeclarationOpen = none) :
    ∃ keyword ∈ declarationKeywords, keyword.Begun m.input.pending := by
  unfold stepMarkupDeclarationOpen at h
  split at h
  · cases h
  · rename_i hdash
    exact ⟨⟨"--", false⟩, by simp [declarationKeywords], Keyword.begun_of_undecided hdash⟩
  · split at h
    · cases h
    · rename_i hdoctype
      exact ⟨⟨"doctype", true⟩, by simp [declarationKeywords], Keyword.begun_of_undecided hdoctype⟩
    · split at h
      · cases h
      · rename_i hcdata
        exact ⟨⟨"[CDATA[", false⟩, by simp [declarationKeywords], Keyword.begun_of_undecided hcdata⟩
      · cases h

theorem begun_of_stepAfterDoctypeName {c : Char} (h : m.stepAfterDoctypeName c = none) :
    ∃ keyword ∈ doctypeKeywords, keyword.Begun m.input.pending := by
  unfold stepAfterDoctypeName at h
  split at h
  · cases h
  · split at h
    · cases h
    · split at h
      · cases h
      · rename_i hpublic
        exact ⟨⟨"public", true⟩, by simp [doctypeKeywords], Keyword.begun_of_undecided hpublic⟩
      · split at h
        · cases h
        · rename_i hsystem
          exact ⟨⟨"system", true⟩, by simp [doctypeKeywords], Keyword.begun_of_undecided hsystem⟩
        · cases h

/-- A state that makes no step looks for keywords, and one of them has begun. -/
theorem stepChar_eq_none {c : Char} (h : m.stepChar c = none) :
    (m.state = .markupDeclarationOpen ∧
      ∃ keyword ∈ declarationKeywords, keyword.Begun m.input.pending) ∨
    (m.state = .afterDoctypeName ∧
      ∃ keyword ∈ doctypeKeywords, keyword.Begun m.input.pending) := by
  unfold stepChar at h
  split at h
  case h_22 hstate => exact .inl ⟨hstate, begun_of_stepMarkupDeclarationOpen h⟩
  case h_33 hstate => exact .inr ⟨hstate, begun_of_stepAfterDoctypeName h⟩
  all_goals cases h

/-- **Where a machine waits**: it has read all text that has arrived, or it is in one of two states,
with no reference under construction and a keyword that has begun. -/
theorem waits_cases (hended : m.ended = false) (h : step .byChar m = none) :
    m.input.pending = [] ∨ m.reference = none ∧
      ((m.state = .markupDeclarationOpen ∧
        ∃ keyword ∈ declarationKeywords, keyword.Begun m.input.pending) ∨
      (m.state = .afterDoctypeName ∧
        ∃ keyword ∈ doctypeKeywords, keyword.Begun m.input.pending)) := by
  unfold step at h
  rw [if_neg (by simp [hended])] at h
  split at h
  · cases h
  · rename_i hpending
    exact .inl hpending
  · rename_i href _
    rw [stepAt_byChar] at h
    exact .inr ⟨href, stepChar_eq_none h⟩
  · rename_i hpending
    exact .inl hpending

/-! ## (3) What is carried over -/

/-- **Text that a machine may carry over** from one chunk to the next. -/
structure CarriesText (m : Machine) : Prop where
  /-- There is some only in two states, and not while a reference is under construction. -/
  waits : m.input.pending = [] ∨
    m.reference = none ∧ (m.state = .markupDeclarationOpen ∨ m.state = .afterDoctypeName)
  /-- Behind `<!` it is a beginning of one of three keywords. -/
  declaration : m.state = .markupDeclarationOpen →
    ∃ keyword ∈ ([⟨"--", false⟩, ⟨"doctype", true⟩, ⟨"[CDATA[", false⟩] : List Keyword),
      keyword.Begun m.input.pending
  /-- Behind the name of a document type it is a beginning of one of two. -/
  doctype : m.state = .afterDoctypeName →
    ∃ keyword ∈ ([⟨"public", true⟩, ⟨"system", true⟩] : List Keyword),
      keyword.Begun m.input.pending
  /-- It has six bytes at most. -/
  bytes : (Utf8.encode (String.ofList m.input.pending)).length ≤ 6

/-- **What a machine may carry over.** -/
structure Carries (m : Machine) : Prop where
  /-- Of the text, a beginning of a keyword. -/
  text : m.CarriesText
  /-- Of the bytes, a proper beginning of some UTF-8 sequence. -/
  sequence : ∃ c, m.input.decoder.carry <+: String.utf8EncodeChar c ∧
    m.input.decoder.carry ≠ String.utf8EncodeChar c
  /-- It has three bytes at most. -/
  sequenceBytes : m.input.decoder.carry.length ≤ 3
  /-- No token. -/
  queue : m.queue = #[]

/-- No text can always be carried over. -/
theorem carriesText_of_nil (h : m.input.pending = []) : m.CarriesText where
  waits := .inl h
  declaration _ := by
    rw [h]
    exact ⟨_, List.mem_cons_self, Keyword.begun_nil (by decide)⟩
  doctype _ := by
    rw [h]
    exact ⟨_, List.mem_cons_self, Keyword.begun_nil (by decide)⟩
  bytes := by
    rw [h]
    exact Nat.zero_le 6

/-- A keyword of the syntax that has begun has six bytes at most. -/
theorem length_encode_le {keyword : Keyword} (hadmits : ∀ k ∈ keyword.text.toList,
    Guarded.Admits keyword k) (hlength : keyword.text.toList.length ≤ 7) {text : List Char}
    (h : keyword.Begun text) : (Utf8.encode (String.ofList text)).length ≤ 6 := by
  have hlt := h.utf8Len_lt hadmits
  rw [Utf8.encode, String.toList_ofList, show text.flatMap String.utf8EncodeChar
    = Guarded.bytesOf text from rfl, Guarded.length_bytesOf]
  omega

/-- **A machine that waits** carries a beginning of a keyword. -/
theorem carriesText_of_waits (hended : m.ended = false) (h : step .byChar m = none) :
    m.CarriesText := by
  obtain hpending | ⟨href, ⟨hstate, hbegun⟩ | ⟨hstate, hbegun⟩⟩ := waits_cases hended h
  · exact carriesText_of_nil hpending
  · refine ⟨.inr ⟨href, .inl hstate⟩, fun _ => hbegun, ?_, ?_⟩
    · intro hother
      rw [hstate] at hother
      cases hother
    · obtain ⟨keyword, hmem, hbegun⟩ := hbegun
      have hlength : ∀ keyword ∈ declarationKeywords, keyword.text.toList.length ≤ 7 := by
        simp [declarationKeywords]
      exact length_encode_le (Guarded.admits_declarationKeywords keyword hmem)
        (hlength keyword hmem) hbegun
  · refine ⟨.inr ⟨href, .inr hstate⟩, ?_, fun _ => hbegun, ?_⟩
    · intro hother
      rw [hstate] at hother
      cases hother
    · obtain ⟨keyword, hmem, hbegun⟩ := hbegun
      have hlength : ∀ keyword ∈ doctypeKeywords, keyword.text.toList.length ≤ 7 := by
        simp [doctypeKeywords]
      exact length_encode_le (Guarded.admits_doctypeKeywords keyword hmem)
        (hlength keyword hmem) hbegun

end Machine

/-! ## (4) Sessions -/

/-- What may be held of the bytes is a proper beginning of some sequence. -/
theorem Utf8.Held.exists_encodeChar {bs : Bytes} (h : Utf8.Held bs) :
    ∃ c, bs <+: String.utf8EncodeChar c ∧ bs ≠ String.utf8EncodeChar c := by
  rcases h with rfl | h
  · exact ⟨'a', List.nil_prefix, by decide⟩
  · exact Utf8.exists_encodeChar h

theorem Utf8.Held.length_lt_four {bs : Bytes} (h : Utf8.Held bs) : bs.length < 4 := by
  rcases h with rfl | h
  · decide
  · exact Utf8.length_lt_four h

/-- **A session at rest** carries over no more than that, and behind the end nothing. -/
theorem Session.Rests.carries {s : Session} (h : s.Rests) : s.machine.Carries where
  text := by
    cases hended : s.ended with
    | true => exact Machine.carriesText_of_nil (h.done hended).1
    | false => exact Machine.carriesText_of_waits (h.machine.trans hended) h.waits
  sequence := h.held.exists_encodeChar
  sequenceBytes := Nat.le_of_lt_succ h.held.length_lt_four
  queue := h.queue

/-- **Bounded carry-over.** After any requests, on either surface, the machine of a session carries over
at most a beginning of one keyword and of one UTF-8 sequence. While the end has not been requested the
next chunk is taken, whatever it is, and after it no more is carried over either. -/
theorem carries_after (surface : Surface) (config : Config) (requests : List Request) :
    ((AnySession.start surface config).after requests).session.machine.Carries ∧
      (.finish ∉ requests → ∀ chunk, ∃ calls s,
        ((AnySession.start surface config).after requests).feed chunk = .ok (calls, s) ∧
          s.session.machine.Carries) := by
  have hrests : ((AnySession.start surface config).after requests).session.Rests := by
    rw [AnySession.session_after, AnySession.session_start]
    exact Session.rests_after (Session.rests_start config) requests
  refine ⟨hrests.carries, ?_⟩
  intro hmem chunk
  obtain ⟨s, hanswer, hsession⟩ := AnySession.exists_answer
    (AnySession.ended_after_start surface config hmem) (.feed chunk)
  refine ⟨_, s, hanswer, ?_⟩
  rw [hsession]
  exact (Session.rests_serve hrests (.feed chunk)).carries

/-- There may be something to carry over. -/
example : ((AnySession.start .borrowed {}).after
    [.feed (Utf8.encode "a<!DOC")]).session.machine.input.pending = ['D', 'O', 'C'] := by
  decide +kernel

end HtmlStream
