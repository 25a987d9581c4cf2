import HtmlStream.Proofs.Chunking
import HtmlStream.Proofs.Reading.Doctype

/-! # Tokenizing undoes canonical markup

The canonical markup of a list of tokens is read back as these tokens and then the end, without an
error. Between two tokens nothing is under construction and the state is that of text, so each token is
read as if it stood alone; the text held back is queued by what follows it.

* **`Pose.between`**: the pose between two tokens.
* **`Pose.leads_token`**, **`Pose.leads_markup`**: a token and a list of tokens are read back.
* **`withoutMark`**: what is left of the tokens if a byte order mark is dropped.
* **`tokenize_markup`**: the calls for canonical markup are those of its tokens. -/

namespace HtmlStream

/-! ## (1) Lists of tokens -/

theorem toList_markup_cons (t : Token) (rest : List Token) :
    (markup (t :: rest)).toList = t.markup.toList ++ (markup rest).toList := by
  rw [markup, List.map_cons, String.join_cons, String.toList_append]
  rfl

/-- Behind text there is none. -/
theorem Canonical.not_text_behind {s : String} {rest : List Token}
    (h : Canonical (.characters s :: rest)) : ∀ t ∈ rest.head?, t.isText = false := by
  intro t ht
  obtain ⟨rest', rfl⟩ : ∃ rest', rest = t :: rest' := by
    cases rest with
    | nil => cases ht
    | cons t' rest' => exact ⟨rest', by cases ht; rfl⟩
  have hapart : Token.Apart (.characters s) t := (List.isChain_cons_cons.mp h.apart).1
  cases t with
  | characters s' => exact hapart.elim
  | _ => rfl

namespace Pose

/-- **The pose between two tokens**: nothing is under construction. -/
def between (done : List Token) (held : String) (rest : List Char) : Pose :=
  { state := .data, rest, done, held }

variable {done : List Token} {held : String} {cs : List Char}

/-- Text is held back. -/
theorem leads_text {s : String} (h : ∀ c ∈ s.toList, isTextChar c = true) :
    (between done "" ((Place.text.write s).toList ++ cs)).Leads (between done s cs) := by
  have hwrite := @leads_write (between done "" ((Place.text.write s).toList ++ cs)) .text cs s rfl rfl
    rfl h
  have hput : { between done "" ((Place.text.write s).toList ++ cs) with rest := cs }.put .text s
      = between done s cs := by
    simp [put, between]
  rw [hput] at hwrite
  exact hwrite

/-- **A token that is not text** is queued behind the text held back. -/
theorem leads_token {t : Token} (h : t.Canonical) (ht : t.isText = false) :
    (between done held (t.markup.toList ++ cs)).Leads
      (between (done ++ (textTokens held ++ [t])) "" cs) := by
  cases t with
  | doctype d => exact leads_doctype h
  | tag t => exact leads_tag h
  | comment text => exact leads_comment h
  | characters s => cases ht
  | _ => exact h.elim

/-- **A list of tokens** is queued, text at its end still held back. -/
theorem leads_markup {tokens : List Token} (h : Canonical tokens)
    (hheld : held = "" ∨ ∀ t ∈ tokens.head?, t.isText = false) :
    ∃ done' held', done' ++ textTokens held' = done ++ (textTokens held ++ tokens) ∧
      (between done held (markup tokens).toList).Leads (between done' held' []) := by
  -- induction on the tokens; what is queued and held back together is what has been read
  induction tokens generalizing done held with
  | nil => exact ⟨done, held, by rw [List.append_nil], Leads.refl _⟩
  | cons t rest ih =>
    rw [toList_markup_cons]
    cases hkind : t.isText with
    | true =>
      -- nothing is held back in front of text, since two texts are no neighbours
      obtain ⟨text, rfl⟩ : ∃ text, t = .characters text := by
        cases t <;> simp [Token.isText] at hkind ⊢
      have hempty : held = "" := by
        rcases hheld with hheld | hheld
        · exact hheld
        · exact absurd (hheld _ rfl) (by simp [Token.isText])
      have htext : text ≠ "" := h.head.1
      obtain ⟨done', held', hdone, hleads⟩ := @ih done text h.tail (Or.inr h.not_text_behind)
      refine ⟨done', held', ?_, ?_⟩
      · rw [hdone, hempty]
        simp [textTokens, htext]
      · rw [hempty]
        exact (leads_text h.head.2).trans hleads
    | false =>
      -- the token takes the text held back with it
      obtain ⟨done', held', hdone, hleads⟩ := @ih (done ++ (textTokens held ++ [t])) "" h.tail
        (Or.inl rfl)
      refine ⟨done', held', ?_, (leads_token h.head hkind).trans hleads⟩
      rw [hdone]
      simp [textTokens]

end Pose

namespace Machine

/-- **The run over canonical markup** queues its tokens and the end, and no error. -/
theorem queue_run_of_markup {m : Machine} {tokens : List Token} (hended : m.ended = false)
    (hfinished : m.input.finished = true) (hpose : m.pose = .between [] "" (markup tokens).toList)
    (h : Canonical tokens) :
    m.run.queue.toList = tokens ++ [.endOfInput] ∧ m.run.errors = 0 := by
  obtain ⟨done, held, hdone, hleads⟩ := @Pose.leads_markup [] "" tokens h (Or.inl rfl)
  obtain ⟨k, hk, hended, hkpose⟩ := hleads m hended hpose
  -- behind all tokens the state is that of text, where the end is queued at once
  have hend : step .byChar k = some k.emitEnd := by
    have href : k.reference = none := congrArg Pose.reference hkpose
    have hpending : k.input.pending = [] := congrArg Pose.rest hkpose
    have hstate : k.state = .data := congrArg Pose.state hkpose
    rw [step, if_neg (by simp [hended]), href, hpending]
    show (if k.input.finished then some k.stepEnd else none) = _
    rw [if_pos ((input_of_leads hk).2.trans hfinished), stepEnd, hstate]
  have hrun : k.emitEnd = m.run :=
    eq_run_of_leads (hk.trans (Leads.single hend)) (step_of_ended rfl)
  have hemit := k.pose_emit .endOfInput
  rw [hkpose] at hemit
  rw [← hrun]
  constructor
  · have hqueue : k.emitEnd.queue.toList = done ++ (textTokens held ++ [.endOfInput]) :=
      congrArg Pose.done hemit
    rw [hqueue, ← List.append_assoc, hdone]
    simp [textTokens]
  · exact congrArg Pose.errors hemit

end Machine

/-! ## (2) The byte order mark -/

/-- **What is left of the tokens** if a byte order mark at the very start is dropped: the mark is the
first character of the first text. -/
def withoutMark (discardBom : Bool) : List Token → List Token
  | .characters s :: rest => textTokens (String.ofList (stripBom discardBom s.toList)) ++ rest
  | tokens => tokens

theorem stripBom_cons {c : Char} (h : c ≠ '\uFEFF') (discardBom : Bool) (cs : List Char) :
    stripBom discardBom (c :: cs) = c :: cs := by
  simp [stripBom, h]

/-- Without a mark, or if marks are kept, the tokens are what they were. -/
theorem withoutMark_eq {discardBom : Bool} {tokens : List Token} (h : Canonical tokens)
    (hmark : discardBom = false ∨
      ∀ s rest, tokens = .characters s :: rest → s.toList.head? ≠ some '\uFEFF') :
    withoutMark discardBom tokens = tokens := by
  unfold withoutMark
  split
  · rename_i s rest
    have hs : s ≠ "" := h.head.1
    obtain ⟨c, cs, hcons⟩ := List.exists_cons_of_ne_nil (mt String.toList_eq_nil_iff.mp hs)
    have hkept : stripBom discardBom s.toList = s.toList := by
      rw [hcons]
      rcases hmark with rfl | hmark
      · rfl
      · refine stripBom_cons ?_ discardBom cs
        intro hc
        refine hmark s rest rfl ?_
        rw [hcons, hc]
        rfl
    rw [hkept, String.ofList_toList, textTokens, if_neg hs]
    rfl
  · rfl

/-- The spelling of text as it is queued. -/
theorem toList_markup_textTokens (l : List Char) (rest : List Token) :
    (markup (textTokens (String.ofList l) ++ rest)).toList
      = l.flatMap (fun c => (Place.text.escape c).toList) ++ (markup rest).toList := by
  by_cases hl : l = []
  · rw [hl]
    rfl
  · have hne : String.ofList l ≠ "" := mt String.ofList_eq_empty_iff.mp hl
    have htext : (Token.characters (String.ofList l)).markup.toList
        = l.flatMap fun c => (Place.text.escape c).toList := by
      rw [Token.markup, Place.toList_write, String.toList_ofList]
    rw [textTokens, if_neg hne, List.singleton_append, toList_markup_cons, htext]

/-- A mark in text is spelled as it is, and no other character is spelled with a mark. -/
theorem stripBom_flatMap_escape (discardBom : Bool) (l behind : List Char) (h : l ≠ []) :
    stripBom discardBom (l.flatMap (fun c => (Place.text.escape c).toList) ++ behind)
      = (stripBom discardBom l).flatMap (fun c => (Place.text.escape c).toList) ++ behind := by
  obtain ⟨c, cs, rfl⟩ := List.exists_cons_of_ne_nil h
  by_cases hmark : c = '\uFEFF'
  · have hescape : (Place.text.escape '\uFEFF').toList = ['\uFEFF'] := by decide
    rw [hmark, List.flatMap_cons, hescape]
    cases discardBom with
    | false => simp [stripBom, hescape]
    | true => simp [stripBom]
  · -- a reference begins with `&`, and any other character is spelled as itself
    obtain ⟨first, others, hfirst, hne⟩ : ∃ first others,
        (Place.text.escape c).toList = first :: others ∧ first ≠ '\uFEFF' := by
      unfold Place.escape
      split
      · exact ⟨_, _, rfl, by decide⟩
      · split
        · exact ⟨_, _, rfl, by decide⟩
        · exact ⟨c, [], by simp, hmark⟩
    rw [stripBom_cons hmark, List.flatMap_cons, hfirst, List.cons_append, List.cons_append,
      stripBom_cons hne]

/-- Every other token begins with `<`. -/
theorem markup_of_not_text {t : Token} (h : t.Canonical) (ht : t.isText = false) :
    ∃ cs, t.markup.toList = '<' :: cs := by
  cases t with
  | doctype d => exact ⟨_, by simp [Token.markup]; rfl⟩
  | tag t =>
    rw [Token.markup, Tag.markup]
    cases t.kind with
    | opening => exact ⟨_, by simp [TagKind.markup]; rfl⟩
    | closing => exact ⟨_, by simp [TagKind.markup]; rfl⟩
  | comment text => exact ⟨_, by simp [Token.markup]; rfl⟩
  | characters s => cases ht
  | _ => exact h.elim

/-- The spelling of tokens without the mark is their spelling without the mark. -/
theorem markup_withoutMark (discardBom : Bool) {tokens : List Token} (h : Canonical tokens) :
    (markup (withoutMark discardBom tokens)).toList = stripBom discardBom (markup tokens).toList := by
  unfold withoutMark
  split
  · rename_i s rest
    have hs : s.toList ≠ [] := mt String.toList_eq_nil_iff.mp h.head.1
    rw [toList_markup_textTokens, toList_markup_cons, Token.markup, Place.toList_write,
      stripBom_flatMap_escape _ _ _ hs]
  · rename_i hother
    cases tokens with
    | nil => rfl
    | cons t rest =>
      have ht : t.isText = false := by
        cases t with
        | characters s => exact absurd rfl (hother s rest)
        | _ => rfl
      obtain ⟨cs, hcs⟩ := markup_of_not_text h.head ht
      rw [toList_markup_cons, hcs, List.cons_append, stripBom_cons (by decide)]

theorem mem_of_mem_stripBom {discardBom : Bool} {c : Char} {cs : List Char}
    (h : c ∈ stripBom discardBom cs) : c ∈ cs := by
  cases cs with
  | nil => exact h
  | cons d cs =>
    rw [stripBom] at h
    split at h
    · exact List.mem_cons_of_mem d h
    · exact h

theorem canonical_withoutMark (discardBom : Bool) {tokens : List Token} (h : Canonical tokens) :
    Canonical (withoutMark discardBom tokens) := by
  unfold withoutMark
  split
  · rename_i s rest
    by_cases hs : stripBom discardBom s.toList = []
    · -- the text was the mark alone, so its token is gone
      rw [hs]
      exact h.tail
    · have hne : String.ofList (stripBom discardBom s.toList) ≠ "" :=
        mt String.ofList_eq_empty_iff.mp hs
      rw [textTokens, if_neg hne, List.singleton_append]
      refine ⟨?_, ?_⟩
      · rw [List.forall_mem_cons]
        refine ⟨⟨hne, ?_⟩, h.tail.each⟩
        intro c hc
        refine h.head.2 c ?_
        rw [String.toList_ofList] at hc
        exact mem_of_mem_stripBom hc
      · cases rest with
        | nil => exact List.isChain_singleton _
        | cons t rest =>
          obtain ⟨hapart, hchain⟩ := List.isChain_cons_cons.mp h.apart
          refine List.isChain_cons_cons.mpr ⟨?_, hchain⟩
          cases t with
          | characters s' => exact hapart.elim
          | _ => trivial
  · exact h

/-! ## (3) The round trip -/

/-- What a machine reads of canonical markup. -/
theorem pending_whole_of_markup (config : Config) {tokens : List Token} (h : Canonical tokens) :
    (Machine.whole config (Utf8.encode (markup tokens))).input.pending
      = (markup (withoutMark config.discardBom tokens)).toList := by
  have hreturn : '\r' ∉ (markup (withoutMark config.discardBom tokens)).toList :=
    (canonical_withoutMark config.discardBom h).return_notMem
  rw [Machine.pending_whole, Utf8.lossy_encode, ← markup_withoutMark config.discardBom h,
    normalizeNewlines_of_notMem hreturn]

/-- **Tokenizing undoes canonical markup.** However the bytes of the markup of canonical tokens are cut
into chunks, the calls are those of the tokens and then the end, without an error, on either surface.
A byte order mark at the very start is dropped if the configuration asks for it. -/
theorem tokenize_markup (surface : Surface) {config : Config} (hconfig : config.initialState = .data)
    {tokens : List Token} (h : Canonical tokens) {chunks : List Bytes}
    (hchunks : chunks.flatten = Utf8.encode (markup tokens)) :
    ∃ stats,
      tokenize surface config chunks
        = .ok (config.calls (withoutMark config.discardBom tokens) ++ [.eof], stats) ∧
      stats.errors = 0 := by
  have hpending := pending_whole_of_markup config h
  have hpose : (Machine.whole config (Utf8.encode (markup tokens))).pose
      = .between [] "" (markup (withoutMark config.discardBom tokens)).toList := by
    rw [← hpending]
    have hstate : (Machine.whole config (Utf8.encode (markup tokens))).state = .data := by
      show config.initialState.state = .data
      rw [hconfig]
      rfl
    simp only [Machine.pose, Pose.between, hstate]
    rfl
  obtain ⟨hqueue, herrors⟩ := Machine.queue_run_of_markup rfl rfl hpose
    (canonical_withoutMark config.discardBom h)
  rw [tokenize_eq, hchunks, hqueue, Config.calls_append]
  exact ⟨_, rfl, herrors⟩

/-- A link whose markup is cut inside a reference. -/
theorem tokenize_markup_of_link : ∃ stats,
    tokenize .borrowed {}
        [Utf8.encode "<a title=\x22&quot;&am", Utf8.encode "p;\x22>1 &lt; 2</a><!--x--->"]
      = .ok ([.startTag "a" false 1, .tagAttr "title" "\x22&", .chars "1 < 2", .endTag "a",
          .comment "x-", .eof], stats) ∧
      stats.errors = 0 := by
  have hname : IsTagName "a" := ⟨'a', [], rfl, by decide, by simp⟩
  have hattribute : (⟨"title", "\x22&"⟩ : Attribute).Canonical :=
    ⟨by decide, List.all_eq_true.mp (by decide), List.all_eq_true.mp (by decide)⟩
  have htext : ∀ c ∈ "1 < 2".toList, isTextChar c = true := List.all_eq_true.mp (by decide)
  have hcomment : ∀ c ∈ "x-".toList, isTextChar c = true := List.all_eq_true.mp (by decide)
  have hcanonical : Canonical [
      .tag { kind := .opening, name := "a", attributes := #[⟨"title", "\x22&"⟩] },
      .characters "1 < 2", .tag { kind := .closing, name := "a" }, .comment "x-"] := by
    refine ⟨?_, by simp [Token.Apart]⟩
    simp only [List.forall_mem_cons]
    refine ⟨⟨hname, by simpa using hattribute, by simp, by simp⟩, ⟨by decide, htext⟩,
      ⟨hname, by simp, by simp, by simp⟩, ⟨hcomment, ?_, ?_, ?_, ?_⟩, by simp⟩
    all_goals decide
  exact tokenize_markup .borrowed rfl hcanonical (by decide +kernel)

end HtmlStream
