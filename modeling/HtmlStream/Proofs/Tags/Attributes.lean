import HtmlStream.Proofs.Clean.Calls
import HtmlStream.Proofs.Tags.Openings

/-! # Attributes and their duplicates

The attributes that a start tag calls for are the first of each name that are written in it, with their own
values; each other attribute is an error and nothing else. An end tag drops all of them, which is an error
too.

* **`Config.ReadsTag`**: what is written in a tag, and the errors from the end of its name on.
* **`Token.exists_startTag`**, **`Token.exists_endTag`**: which calls are those of a tag.
* **`attributes_of_tags`**: every start tag and every end tag that is called for. -/

namespace HtmlStream

open Attribute

/-- **A session has read a tag** behind the calls `before`: in front of what is written in it stood a machine
behind its name, and from there on it called for errors with the given codes and nothing else. -/
def Config.ReadsTag (config : Config) (bs : Bytes) (before : List TextCallback) (kind : TagKind)
    (name : String) (body : TagBody) (codes : List ErrorCode) : Prop :=
  ∃ m errors, (Machine.whole config bs).Leads m ∧ m.BehindName ∧ m.tag.kind = kind ∧ m.tag.name = name ∧
    TagBody.scan m.input.pending = some body ∧ AreErrors codes errors ∧
    before = config.calls (m.output ++ errors)

/-! ## (1) Calls of tags -/

namespace Token

variable {exact : Bool} {t : Token} {pre post : List TextCallback} {name : String}

/-- **Only a start tag calls for one**, and then for its attributes. -/
theorem exists_startTag {selfClosing : Bool} {count : Nat}
    (h : t.callbacks exact = pre ++ .startTag name selfClosing count :: post) :
    ∃ tag : Tag, t = .tag tag ∧ pre = [] ∧ tag.kind = .opening ∧ name = tag.name ∧
      selfClosing = tag.selfClosing ∧ count = tag.attributes.size ∧
      post = tag.attributes.toList.map fun a => .tagAttr a.name a.value := by
  obtain ⟨tag, rfl, hpost⟩ := t.eq_tag_of_callbacks h
  rw [callbacks, Tag.callbacks] at h
  cases hkind : tag.kind with
  | opening =>
    rw [hkind, ← hpost] at h
    have hpre : pre = [] := by
      have hlength := congrArg List.length h
      simp only [List.length_append, List.length_cons] at hlength
      exact List.eq_nil_of_length_eq_zero (by omega)
    rw [hpre, List.nil_append] at h
    simp only [List.cons.injEq, Callback.startTag.injEq] at h
    exact ⟨tag, rfl, hpre, hkind, h.1.1.symm, h.1.2.1.symm, h.1.2.2.symm, hpost⟩
  | closing =>
    rw [hkind] at h
    have hmem : Callback.startTag name selfClosing count ∈ [(.endTag tag.name : TextCallback)] := by
      have hcalls : [(.endTag tag.name : TextCallback)] = pre ++ .startTag name selfClosing count :: post := h
      rw [hcalls]
      simp
    simp at hmem

/-- **Only an end tag calls for one**, and for nothing else. -/
theorem exists_endTag (h : t.callbacks exact = pre ++ .endTag name :: post) :
    ∃ tag : Tag, t = .tag tag ∧ pre = [] ∧ post = [] ∧ tag.kind = .closing ∧ name = tag.name := by
  have hmem : Callback.endTag name ∈ t.callbacks exact := by simp [h]
  cases t with
  | tag tag =>
    rw [callbacks, Tag.callbacks] at h hmem
    cases hkind : tag.kind with
    | opening => simp [hkind] at hmem
    | closing =>
      rw [hkind] at h
      have hlength := congrArg List.length h
      simp only [List.length_append, List.length_cons, List.length_nil] at hlength
      obtain rfl : pre = [] := List.eq_nil_of_length_eq_zero (by omega)
      obtain rfl : post = [] := List.eq_nil_of_length_eq_zero (by omega)
      simp only [List.nil_append, List.cons.injEq, Callback.endTag.injEq, and_true] at h
      exact ⟨tag, rfl, rfl, rfl, hkind, h.symm⟩
  | _ => simp [callbacks] at hmem

end Token

/-! ## (2) Errors of tags -/

section

variable {codes : List ErrorCode} {kind : TagKind} {body : TagBody}
  (hcodes : codes.filter ErrorCode.concernsTags
    = List.replicate (dropped body.attributes) .duplicateAttribute ++ kind.endErrors body)
include hcodes

/-- **There is an error for each attribute that is dropped.** -/
theorem count_duplicateAttribute : codes.count .duplicateAttribute
    = body.attributes.length - (firsts body.attributes).length := by
  have hnone : ErrorCode.duplicateAttribute ∉ kind.endErrors body := by
    cases kind
    · exact List.not_mem_nil
    · simp only [TagKind.endErrors]
      repeat' split
      all_goals simp
  rw [← List.count_filter (p := ErrorCode.concernsTags) rfl, hcodes, List.count_append,
    List.count_replicate_self, List.count_eq_zero_of_not_mem hnone, Nat.add_zero, dropped]

/-- **The errors of the end of a tag.** -/
theorem mem_iff_mem_endErrors {code : ErrorCode} (hcode : code.concernsTags = true)
    (hne : code ≠ .duplicateAttribute) : code ∈ codes ↔ code ∈ kind.endErrors body := by
  have hfilter : code ∈ codes ↔ code ∈ codes.filter ErrorCode.concernsTags := by
    rw [List.mem_filter, hcode]
    exact (and_iff_left rfl).symm
  rw [hfilter, hcodes, List.mem_append, List.mem_replicate]
  exact or_iff_right fun h => hne h.2

end

/-! ## (3) Every tag -/

/-- **Of attributes of one name the first is kept.** For any configuration, any input and any chunks, on
either surface: behind every start tag are called for the attributes that are the first of each name
written in it, in order and each with its own value, and no others; behind an end tag none are. The number
of errors for duplicate attributes is that of the attributes that are no first ones. There is an error that
an end tag has attributes if and only if some are written in it, and one that it is self-closing if and only
if it is; a start tag has neither. -/
theorem attributes_of_tags (surface : Surface) (config : Config) (chunks : List Bytes) :
    ∃ calls stats, tokenize surface config chunks = .ok (calls, stats) ∧
      (∀ before name selfClosing count after,
        calls = before ++ .startTag name selfClosing count :: after →
        ∃ body codes rest, config.ReadsTag chunks.flatten before .opening name body codes ∧
          after = ((firsts body.attributes).map fun a => .tagAttr a.name a.value) ++ rest ∧
          leadingAttributes rest = [] ∧ count = (firsts body.attributes).length ∧
          selfClosing = body.selfClosing ∧
          codes.count .duplicateAttribute
            = body.attributes.length - (firsts body.attributes).length ∧
          .endTagWithAttributes ∉ codes ∧ .endTagWithTrailingSolidus ∉ codes) ∧
      ∀ before name after, calls = before ++ .endTag name :: after →
        ∃ body codes, config.ReadsTag chunks.flatten before .closing name body codes ∧
          leadingAttributes after = [] ∧
          codes.count .duplicateAttribute
            = body.attributes.length - (firsts body.attributes).length ∧
          (.endTagWithAttributes ∈ codes ↔ body.attributes ≠ []) ∧
          (.endTagWithTrailingSolidus ∈ codes ↔ body.selfClosing = true) := by
  refine ⟨_, _, tokenize_eq surface config chunks, ?_, ?_⟩
  · intro before name selfClosing count after hcalls
    obtain ⟨front, t, back, pre, post, htokens, ht, hbefore, rfl⟩ := Config.exists_of_calls hcalls
    obtain ⟨tag, rfl, rfl, hkind, rfl, rfl, rfl, rfl⟩ := Token.exists_startTag ht
    rw [List.append_nil] at hbefore
    obtain ⟨m, read, hreach, hname, hread, rfl⟩ := Machine.exists_readsTag_of_run htokens
    obtain ⟨body, codes, errors, hscan, herrors, hcodes, hfront, htag⟩ := hread
    obtain rfl := Token.tag.inj htag
    rw [show m.tag.kind = .opening from hkind] at hcodes
    refine ⟨body, codes, config.calls back, ⟨m, errors, hreach, hname, hkind, rfl, hscan, herrors, ?_⟩,
      rfl, leadingAttributes_calls config back, ?_, rfl, count_duplicateAttribute hcodes, ?_, ?_⟩
    · rw [hbefore, hfront]
    · exact List.size_toArray
    · exact mt (mem_iff_mem_endErrors hcodes rfl (by decide)).mp (List.not_mem_nil)
    · exact mt (mem_iff_mem_endErrors hcodes rfl (by decide)).mp (List.not_mem_nil)
  · intro before name after hcalls
    obtain ⟨front, t, back, pre, post, htokens, ht, hbefore, rfl⟩ := Config.exists_of_calls hcalls
    obtain ⟨tag, rfl, rfl, rfl, hkind, rfl⟩ := Token.exists_endTag ht
    rw [List.append_nil] at hbefore
    obtain ⟨m, read, hreach, hname, hread, rfl⟩ := Machine.exists_readsTag_of_run htokens
    obtain ⟨body, codes, errors, hscan, herrors, hcodes, hfront, htag⟩ := hread
    obtain rfl := Token.tag.inj htag
    rw [show m.tag.kind = .closing from hkind] at hcodes
    refine ⟨body, codes, ⟨m, errors, hreach, hname, hkind, rfl, hscan, herrors, ?_⟩,
      leadingAttributes_calls config back, count_duplicateAttribute hcodes, ?_, ?_⟩
    · rw [hbefore, hfront]
    · rw [mem_iff_mem_endErrors hcodes rfl (by decide), TagKind.endErrors]
      by_cases hattributes : body.attributes = [] <;> simp [hattributes]
    · rw [mem_iff_mem_endErrors hcodes rfl (by decide), TagKind.endErrors]
      cases body.selfClosing <;> simp

/-- Two attributes of one name, the input cut within the value of another. -/
theorem attributes_of_tags_cut :
    ∃ stats, tokenize .borrowed {} [Utf8.encode "<p A=1 b='&am", Utf8.encode "p;x' a = c></P x/>"]
      = .ok ([.error "duplicate-attribute", .startTag "p" false 2, .tagAttr "a" "1", .tagAttr "b" "&x",
          .error "end-tag-with-attributes", .error "end-tag-with-trailing-solidus", .endTag "p", .eof],
        stats) ∧
      ∃ body codes, Config.ReadsTag {} (Utf8.encode "<p A=1 b='&amp;x' a = c></P x/>")
          [.error "duplicate-attribute"] .opening "p" body codes ∧
        (firsts body.attributes).length = 2 ∧
        codes.count .duplicateAttribute = body.attributes.length - 2 := by
  have hcalls : Config.calls {} (Machine.whole {} [Utf8.encode "<p A=1 b='&am",
      Utf8.encode "p;x' a = c></P x/>"].flatten).run.queue.toList
        = [.error "duplicate-attribute", .startTag "p" false 2, .tagAttr "a" "1", .tagAttr "b" "&x",
          .error "end-tag-with-attributes", .error "end-tag-with-trailing-solidus", .endTag "p",
          .eof] := by
    decide +kernel
  have htokens := tokenize_eq .borrowed {} [Utf8.encode "<p A=1 b='&am",
    Utf8.encode "p;x' a = c></P x/>"]
  rw [hcalls] at htokens
  obtain ⟨calls, stats, h, hstart, -⟩ := attributes_of_tags .borrowed {} [Utf8.encode "<p A=1 b='&am",
    Utf8.encode "p;x' a = c></P x/>"]
  rw [htokens, Except.ok.injEq, Prod.mk.injEq] at h
  obtain ⟨body, codes, rest, hread, -, -, hcount, -, hdropped, -⟩ :=
    hstart [.error "duplicate-attribute"] "p" false 2 _ h.1.symm
  have hflatten : [Utf8.encode "<p A=1 b='&am", Utf8.encode "p;x' a = c></P x/>"].flatten
      = Utf8.encode "<p A=1 b='&amp;x' a = c></P x/>" := by decide +kernel
  rw [hflatten] at hread
  rw [← hcount] at hdropped
  exact ⟨_, htokens, body, codes, hread, hcount.symm, hdropped⟩

end HtmlStream
