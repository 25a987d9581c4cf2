import HtmlStream.Proofs.Chunking
import HtmlStream.Proofs.Machine.Nulls

/-! # Reports of U+0000

On either surface, and however the input is cut, the errors that say that a U+0000 was met are as many
as the U+0000 of the decoded input, less those that the machine overlooks in a document type.

* **`ParseError.codeOf`**: the code that a message, exact or not, begins with.
* **`Callback.reportsNull`**: the calls that are counted.
* **`tokenize_reportsNull`**: how many there are. -/

namespace HtmlStream

/-! ## (1) The code of a message -/

/-- The code that a message begins with: what stands in front of its first space. -/
def ParseError.codeOf (message : String) : String :=
  String.ofList (message.toList.takeWhile (· ≠ ' '))

/-- A test of all characters of a text is one of the characters it is made of. -/
theorem all_toList {s : String} {cs : List Char} {p : Char → Bool} (hs : s = String.ofList cs)
    (hcs : cs.all p = true) : s.toList.all p = true := by
  rw [hs, String.toList_ofList]
  exact hcs

/-- No code has a space in it. -/
theorem ErrorCode.ne_space_of_mem (code : ErrorCode) : ∀ c ∈ code.text.toList, c ≠ ' ' := by
  have hall : code.text.toList.all (· ≠ ' ') = true := by
    cases code <;> exact all_toList rfl (by decide)
  intro c hc
  exact of_decide_eq_true (List.all_eq_true.mp hall c hc)

theorem ErrorCode.text_eq_iff (code : ErrorCode) :
    code.text = ErrorCode.unexpectedNullCharacter.text ↔ code = .unexpectedNullCharacter := by
  cases code <;> simp [text]

/-- **A message begins with its code**, whether or not state and position follow. -/
theorem ParseError.codeOf_message (exact : Bool) (e : ParseError) (state : State) :
    codeOf (e.message exact state) = e.code.text := by
  have hcode : ∀ c ∈ e.code.text.toList, decide (c ≠ ' ') = true := by
    intro c hc
    exact decide_eq_true (e.code.ne_space_of_mem c hc)
  cases exact with
  | false =>
    rw [message, if_neg Bool.false_ne_true, codeOf, List.takeWhile_eq_self_iff.mpr hcode,
      String.ofList_toList]
  | true =>
    -- what follows the code begins with a space
    have htext : (e.exactMessage state).toList
        = e.code.text.toList ++ ' ' :: ("in state " ++ state.text ++ " at character " ++
            toString e.position).toList := by
      simp [exactMessage]
    rw [message, if_pos rfl, codeOf, htext, List.takeWhile_append_of_pos hcode,
      List.takeWhile_cons_of_neg (by decide), List.append_nil, String.ofList_toList]

/-! ## (2) Calls -/

/-- Whether a call reports a U+0000. -/
def Callback.reportsNull : TextCallback → Bool
  | .error message => ParseError.codeOf message = ErrorCode.unexpectedNullCharacter.text
  | _ => false

/-- **A token amounts to one such call if it is the report of a U+0000**, and else to none. -/
theorem Token.countP_callbacks (exact : Bool) (t : Token) :
    (t.callbacks exact).countP Callback.reportsNull = if t.isNullReport then 1 else 0 := by
  cases t with
  | error e state =>
    have hreports : Callback.reportsNull (.error (e.message exact state))
        = decide (e.code = .unexpectedNullCharacter) := by
      rw [Callback.reportsNull, ParseError.codeOf_message]
      exact decide_eq_decide.mpr e.code.text_eq_iff
    rw [callbacks, List.countP_singleton, hreports]
    rfl
  | tag t =>
    rw [callbacks, Tag.callbacks]
    cases t.kind with
    | opening =>
      have hattributes (attributes : List Attribute) :
          (attributes.map fun a => (.tagAttr a.name a.value : TextCallback)).countP
            Callback.reportsNull = 0 := by
        simp [List.countP_eq_zero, Callback.reportsNull]
      rw [List.countP_cons, hattributes]
      rfl
    | closing => rfl
  | _ => rfl

theorem Config.countP_calls (config : Config) (tokens : List Token) :
    (config.calls tokens).countP Callback.reportsNull = tokens.countP Token.isNullReport := by
  induction tokens with
  | nil => rfl
  | cons t rest ih =>
    have hcalls : config.calls (t :: rest) = t.callbacks config.exactErrors ++ config.calls rest :=
      List.flatMap_cons
    rw [hcalls, List.countP_append, t.countP_callbacks, ih, List.countP_cons, Nat.add_comm]

/-- **Reports of U+0000.** The calls that report one, and those that the machine overlooks on its way
through the input, are together as many as the decoded input has. -/
theorem tokenize_reportsNull (surface : Surface) (config : Config) (chunks : List Bytes) :
    ∃ calls stats, tokenize surface config chunks = .ok (calls, stats) ∧
      calls.countP Callback.reportsNull + (Machine.whole config chunks.flatten).overlooked
        = (normalizeNewlines (stripBom config.discardBom
            (Utf8.lossy chunks.flatten).toList)).count '\x00' := by
  refine ⟨_, _, tokenize_eq surface config chunks, ?_⟩
  rw [Config.countP_calls, ← Machine.pending_whole]
  exact Machine.count_pending_eq rfl rfl rfl

/-- **Not every U+0000 is reported**: one that stands where the identifier after `PUBLIC` should begin
is not, although it would be as part of the name in front of it or of the rest behind it. -/
theorem not_all_null_reported :
    ¬∀ (surface : Surface) (config : Config) (chunks : List Bytes) (calls : List TextCallback)
        (stats : Stats), tokenize surface config chunks = .ok (calls, stats) →
      calls.countP Callback.reportsNull
        = (normalizeNewlines (stripBom config.discardBom
            (Utf8.lossy chunks.flatten).toList)).count '\x00' := by
  intro h
  have hcount := h .borrowed {} [Utf8.encode "<!DOCTYPE html PUBLIC \x00>"] _ _ (tokenize_eq _ _ _)
  revert hcount
  decide +kernel

end HtmlStream
