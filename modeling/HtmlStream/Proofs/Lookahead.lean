import HtmlStream.Input

/-! # Comparison with a keyword

A keyword is compared with the characters that have arrived. The comparison is undecided only while
they are a proper beginning of the keyword, so that what arrives behind them cannot overturn a
decision.

* **`Lookahead.length_le_of_found`**: what has been found has arrived.
* **`Lookahead.compare_append`**: a decided comparison stays decided. -/

namespace HtmlStream

/-- A keyword that has been found has arrived in full. -/
theorem Lookahead.length_le_of_found {same : Char → Char → Bool} {finished : Bool}
    {keyword pending : List Char} (h : compare same finished keyword pending = .found) :
    keyword.length ≤ pending.length := by
  induction keyword generalizing pending with
  | nil => simp
  | cons k keyword ih =>
    cases pending with
    | nil =>
      -- with a part of the keyword left, nothing is found
      rw [compare] at h
      split at h <;> cases h
    | cons c pending =>
      rw [compare] at h
      split at h
      · have := ih h
        simpa using this
      · cases h

/-- **A decided comparison stays decided**, whatever arrives behind. -/
theorem Lookahead.compare_append {same : Char → Char → Bool} {finished finished' : Bool}
    {keyword pending behind : List Char} (hend : finished = true → behind = [] ∧ finished' = true)
    (h : compare same finished keyword pending ≠ .undecided) :
    compare same finished' keyword (pending ++ behind) = compare same finished keyword pending := by
  induction keyword generalizing pending with
  | nil => simp [compare]
  | cons k keyword ih =>
    cases pending with
    | nil =>
      -- used up inside the keyword: decided only by the end, and then nothing arrives behind
      cases finished with
      | false => exact absurd rfl h
      | true =>
        obtain ⟨rfl, rfl⟩ := hend rfl
        rfl
    | cons c pending =>
      rw [List.cons_append, compare, compare]
      rw [compare] at h
      split
      · rw [if_pos (by assumption)] at h
        exact ih h
      · rfl

end HtmlStream
