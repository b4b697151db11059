import SalesDashboard.NpsRatings.Masking

/-! When the text of a comment holds no personal data. -/

namespace SalesDashboard.NpsRatings
open Regex Python

variable {lib : Stdlib}

/-! ## Plain texts -/

/-- A text without markup, entities, e-mail or phone characters. -/
def Plain (lib : Stdlib) (s : String) : Prop :=
  ∀ c ∈ s.toList, c ≠ '<' ∧ c ≠ '&' ∧ c ≠ '@' ∧ lib.digit (translate c) = false

theorem lowerChar_lt {c : Char} (h : lowerChar c = '<') : c = '<' := by
  unfold lowerChar at h
  split at h
  · cases h
  · unfold Char.toLower at h
    split at h
    · rename_i hupper
      have hval := congrArg (fun c : Char => c.val.toNat) h
      have hge := UInt32.le_iff_toNat_le.mp hupper.1
      have hle := UInt32.le_iff_toNat_le.mp hupper.2
      simp at hval hge hle
      omega
    · exact h

theorem innerText_plain {s : String} (h : '<' ∉ s.toList) : innerText (some s) = stripChars s.toList := by
  have hnone : outerP s.toList = none := by
    unfold outerP
    refine if_neg fun hp => ?_
    have hstart := hp.2.1
    cases ht : stripChars s.toList with
    | nil =>
      rw [ht] at hstart
      cases hstart
    | cons c t =>
      rw [ht] at hstart
      have hc : c = '<' := lowerChar_lt (List.cons_eq_cons.mp hstart).1
      have hmem : c ∈ stripChars s.toList := ht ▸ List.mem_cons_self
      exact h (hc ▸ (infix_stripChars _).mem hmem)
  show stripChars ((outerP s.toList).getD s.toList) = _
  rw [hnone]
  rfl

/-- An expression whose words need a character that is not there. -/
theorem sub_without {r : Re Char} {f : List Char → List Char} {c : Char} {s : List Char} (hr : ∀ w ∈ r.language, c ∈ w)
    (hc : c ∉ s) : r.sub f s = s := Re.sub_eq_self fun w hw h => hc (h.mem (hr w hw))

theorem mem_break : ∀ w ∈ BREAK.language, '<' ∈ w := by
  rintro _ ⟨_, ⟨c, hc, rfl⟩, w, _, rfl⟩
  exact List.mem_append_left w (by rw [of_decide_eq_true hc]; exact List.mem_cons_self)

theorem mem_tag : ∀ w ∈ TAG.language, '<' ∈ w := by
  rintro _ ⟨_, ⟨c, hc, rfl⟩, w, _, rfl⟩
  exact List.mem_append_left w (by rw [of_decide_eq_true hc]; exact List.mem_cons_self)

theorem withoutTags_plain {s : String} (h : '<' ∉ s.toList) : withoutTags (some s) = stripChars s.toList := by
  have hno : '<' ∉ stripChars s.toList := fun hmem => h ((infix_stripChars _).mem hmem)
  unfold withoutTags withBreaks
  rw [innerText_plain h, sub_without mem_break hno, sub_without mem_tag hno]

theorem decoded_plain {s : String} (h : '<' ∉ s.toList) (hamp : '&' ∉ s.toList) :
    decoded lib (some s) = (stripChars s.toList).map translate := by
  unfold decoded
  rw [withoutTags_plain h, lib.unescape_plain _ fun hmem => hamp ((infix_stripChars _).mem hmem)]

theorem translate_cases (c : Char) : translate c = c ∨ ∃ k < 10, translate c = Char.ofNat (k + 48) := by
  unfold translate
  simp only
  split
  · rename_i h
    exact .inr ⟨_, by omega, rfl⟩
  · split
    · rename_i h
      exact .inr ⟨_, by omega, rfl⟩
    · exact .inl rfl

theorem digit_ofNat {k : Nat} (hk : k < 10) : lib.digit (Char.ofNat (k + 48)) = true := by
  have hascii : ∀ k < 10, (Char.ofNat (k + 48)).toNat < 128 ∧ (Char.ofNat (k + 48)).isDigit = true := by decide
  exact (lib.digit_ascii _ (hascii k hk).1).trans (hascii k hk).2

theorem translate_plain {c : Char} (h : lib.digit (translate c) = false) : translate c = c := by
  rcases translate_cases c with heq | ⟨k, hk, heq⟩
  · exact heq
  · rw [heq, digit_ofNat hk] at h
    cases h

theorem translate_at {c : Char} (h : translate c = '@') : c = '@' := by
  rcases translate_cases c with heq | ⟨k, hk, heq⟩
  · exact heq.symm.trans h
  · have hno : ∀ k < 10, Char.ofNat (k + 48) ≠ '@' := by decide
    exact absurd (heq.symm.trans h) (hno k hk)

/-- Without markup, entities and addresses only the digits are translated. -/
theorem emailsMasked_plain {s : String} (h : ∀ c ∈ s.toList, c ≠ '<' ∧ c ≠ '&' ∧ c ≠ '@') :
    emailsMasked lib (some s) = (stripChars s.toList).map translate := by
  unfold emailsMasked
  rw [decoded_plain (fun hmem => (h _ hmem).1 rfl) (fun hmem => (h _ hmem).2.1 rfl)]
  refine sub_without (fun w hw => (mem_email hw).1) fun hmem => ?_
  obtain ⟨c, hc, hat⟩ := List.mem_map.mp hmem
  exact (h c ((infix_stripChars _).mem hc)).2.2 (translate_at hat)

theorem phonesMasked_plain {s : String} (h : Plain lib s) : phonesMasked lib (some s) = stripChars s.toList := by
  have hsame : (stripChars s.toList).map translate = stripChars s.toList :=
    (List.map_congr_left fun c hc => translate_plain (h c ((infix_stripChars _).mem hc)).2.2.2).trans (List.map_id _)
  unfold phonesMasked
  rw [emailsMasked_plain fun c hc => ⟨(h c hc).1, (h c hc).2.1, (h c hc).2.2.1⟩, hsame]
  refine Re.sub_eq_self fun w hw hinfix => ?_
  obtain ⟨plus, d, mid, e, rfl, _, hd, _⟩ := mem_phone hw
  have hmem : d ∈ stripChars s.toList := hinfix.mem (List.mem_append_right _ List.mem_cons_self)
  have hplain := (h d ((infix_stripChars _).mem hmem)).2.2.2
  rw [translate_plain hplain, hd] at hplain
  cases hplain

/-! ## Personal data -/

/-- What masking promises of the text of a body: no address and no number of seven digits
and more is left, wherever it is cut; everything but markup, numbers and addresses is kept. -/
structure Masked (lib : Stdlib) (body : Option String) (text : String) : Prop where
  emails : ∀ m ∈ (EMAIL lib).language, ¬ m <:+: text.toList
  numbers : ∀ run, run <:+: text.toList → (∀ c ∈ run, inRun lib c = true) → run.countP lib.digit < 7
  kept : ∃ broken untagged emails phones, Replaces BREAK.language ['\n'] (innerText body) broken ∧
    Replaces TAG.language [] broken untagged ∧
    Replaces (EMAIL lib).language EMAIL_MASK ((lib.unescape untagged).map translate) emails ∧
    Replaces (PhoneText lib) PHONE_MASK emails phones ∧ text.toList = normalised phones
  plain : ∀ s, body = some s → Plain lib s → text = String.ofList (normalised (stripChars s.toList))

/-- The text has a long run exactly where seven digits stand together. -/
theorem longRun_commentText (body : Option String) :
    LongRun lib (commentText lib body).toList ↔ SevenTogether lib (emailsMasked lib body) := by
  have hnormalised : LongRun lib (normalised (phonesMasked lib body)) ↔ LongRun lib (phonesMasked lib body) := by
    rw [← longRun_filter, filter_normalised, longRun_filter]
  unfold commentText
  rw [String.toList_ofList]
  exact hnormalised.trans (longRun_shownFrom _ none rfl)

theorem masked_numbers_iff (body : Option String) :
    (∀ run, run <:+: (commentText lib body).toList → (∀ c ∈ run, inRun lib c = true) → run.countP lib.digit < 7) ↔
      ¬ SevenTogether lib (emailsMasked lib body) := by
  rw [← longRun_commentText]
  constructor
  · rintro h ⟨run, hrun, hall, hcount⟩
    exact absurd (h run hrun hall) (Nat.not_lt.mpr hcount)
  · intro h run hrun hall
    by_contra hcount
    exact h ⟨run, hrun, hall, Nat.not_lt.mp hcount⟩

theorem commentText_kept (body : Option String) :
    ∃ broken untagged emails phones, Replaces BREAK.language ['\n'] (innerText body) broken ∧
      Replaces TAG.language [] broken untagged ∧
      Replaces (EMAIL lib).language EMAIL_MASK ((lib.unescape untagged).map translate) emails ∧
      Replaces (PhoneText lib) PHONE_MASK emails phones ∧ (commentText lib body).toList = normalised phones := by
  refine ⟨withBreaks body, withoutTags body, emailsMasked lib body, phonesMasked lib body, replaces_sub _ _ _,
    replaces_sub _ _ _, replaces_sub _ _ _, replaces_phones _, ?_⟩
  unfold commentText
  rw [String.toList_ofList]

/-- The text of a comment keeps its promise if and only if no run of the text has just seven
digits with nothing between them: the pattern wants eight characters. -/
theorem commentText_masked_iff (lib : Stdlib) (body : Option String) :
    Masked lib body (commentText lib body) ↔ ¬ SevenTogether lib (emailsMasked lib body) := by
  constructor
  · exact fun h => (masked_numbers_iff body).mp h.numbers
  · intro h
    refine ⟨no_email body, (masked_numbers_iff body).mpr h, commentText_kept body, ?_⟩
    rintro s rfl hplain
    unfold commentText
    rw [phonesMasked_plain hplain]

/-! ## Seven digits -/

theorem not_word_space {c : Char} (h : isSpace c = true) : (c.isAlphanum || c = '_') = false := by
  rw [Bool.eq_false_iff]
  intro hword
  unfold isSpace at h
  simp only [Char.isAlphanum, Char.isAlpha, Char.isUpper, Char.isLower, Char.isDigit, Bool.or_eq_true, Bool.and_eq_true,
    decide_eq_true_eq, UInt32.le_iff_toNat_le, ge_iff_le] at hword h
  have hnat : c.toNat = c.val.toNat := rfl
  rcases hword with hword | rfl
  · simp at hword
    omega
  · revert h
    decide

/-- ASCII characters, and texts without entities. -/
def asciiLib : Stdlib where
  word c := c.isAlphanum || c = '_'
  digit c := c.isDigit
  isdigit c := c.isDigit
  unescape cs := cs
  word_ascii _ _ := rfl
  digit_ascii _ _ := rfl
  isdigit_ascii _ _ := rfl
  isdigit_digit _ h := h
  word_space _ h := not_word_space h
  digit_space c h := by
    have hword := not_word_space h
    unfold Char.isAlphanum at hword
    simp_all
  isdigit_space c h := by
    have hword := not_word_space h
    unfold Char.isAlphanum at hword
    simp_all
  unescape_plain _ _ := rfl

def sevenDigits : String := String.ofList ['1', '2', '3', '4', '5', '6', '7']

/-- Seven digits are left as they are. -/
theorem commentText_seven_digits : ¬ Masked asciiLib (some sevenDigits) (commentText asciiLib (some sevenDigits)) := by
  intro h
  refine (masked_numbers_iff _).mp h.numbers ?_
  have hplain : ∀ c ∈ sevenDigits.toList, c ≠ '<' ∧ c ≠ '&' ∧ c ≠ '@' := by
    unfold sevenDigits
    rw [String.toList_ofList]
    intro c hc
    simp only [List.mem_cons, List.not_mem_nil, or_false] at hc
    rcases hc with rfl | rfl | rfl | rfl | rfl | rfl | rfl <;> decide
  rw [emailsMasked_plain hplain]
  unfold sevenDigits
  rw [String.toList_ofList]
  decide

end SalesDashboard.NpsRatings
