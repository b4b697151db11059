import SalesDashboard.NpsRatings.LongRuns

/-! What is left of personal data in the text of a comment. -/

namespace SalesDashboard.NpsRatings
open Regex Python

variable {lib : Stdlib}

/-! ## Lines -/

theorem filter_dropWhile_isSpace (cs : List Char) :
    (cs.dropWhile isSpace).filter (fun c => !isSpace c) = cs.filter fun c => !isSpace c := by
  induction cs with
  | nil => rfl
  | cons c cs ih =>
    cases hc : isSpace c with
    | true => rw [List.dropWhile_cons_of_pos hc, ih, List.filter_cons_of_neg (by rw [hc]; decide)]
    | false => rw [List.dropWhile_cons_of_neg (Bool.eq_false_iff.mp hc)]

theorem filter_stripChars (cs : List Char) :
    (stripChars cs).filter (fun c => !isSpace c) = cs.filter fun c => !isSpace c := by
  unfold stripChars List.rdropWhile
  rw [List.filter_reverse, filter_dropWhile_isSpace, ← List.filter_reverse, List.reverse_reverse, filter_dropWhile_isSpace]

theorem infix_stripChars (cs : List Char) : stripChars cs <:+: cs :=
  (List.rdropWhile_prefix _ _).isInfix.trans (List.dropWhile_suffix _).isInfix

theorem isSpace_lineBreak {c : Char} (h : isLineBreak c = true) : isSpace c = true := by
  unfold isLineBreak at h
  unfold isSpace
  simp only [Bool.or_eq_true, Bool.and_eq_true, decide_eq_true_eq] at h ⊢
  omega

theorem filter_splitlinesFrom (line cs : List Char) :
    (splitlinesFrom line cs).flatten.filter (fun c => !isSpace c) = (line ++ cs).filter fun c => !isSpace c := by
  induction cs generalizing line with
  | nil =>
    unfold splitlinesFrom
    split
    · rename_i hline
      rw [hline]
      rfl
    · rw [List.flatten_singleton, List.append_nil]
  | cons c cs ih =>
    have hdrop : isSpace c = true → (line ++ c :: cs).filter (fun c => !isSpace c) =
        (line ++ cs).filter fun c => !isSpace c := fun hc => by
      rw [List.filter_append, List.filter_append, List.filter_cons_of_neg (by rw [hc]; decide)]
    unfold splitlinesFrom
    split
    · rename_i hcr
      rw [ih, hdrop (by rw [hcr.1]; decide)]
    · split
      · rename_i hbreak
        rw [hdrop (isSpace_lineBreak hbreak), List.flatten_cons, List.filter_append, ih, List.nil_append, List.filter_append]
      · rw [ih, List.append_assoc, List.singleton_append]

theorem infix_of_mem_splitlinesFrom (line cs : List Char) :
    ∀ l ∈ splitlinesFrom line cs, l <:+: line ++ cs.takeWhile (fun c => !isLineBreak c) ∨ l <:+: cs := by
  induction cs generalizing line with
  | nil =>
    intro l hl
    unfold splitlinesFrom at hl
    split at hl
    · cases hl
    · rw [List.mem_singleton.mp hl]
      exact .inl (List.prefix_append line _).isInfix
  | cons c cs ih =>
    intro l hl
    have hskip : ∀ line', l ∈ splitlinesFrom line' cs → cs.takeWhile (fun c => !isLineBreak c) = [] →
        line' <:+: line → l <:+: line ++ (c :: cs).takeWhile (fun c => !isLineBreak c) ∨ l <:+: c :: cs := by
      intro line' hl' hnil hline'
      rcases ih line' l hl' with h | h
      · rw [hnil, List.append_nil] at h
        exact .inl ((h.trans hline').trans (List.prefix_append line _).isInfix)
      · exact .inr (h.trans (List.suffix_cons c cs).isInfix)
    unfold splitlinesFrom at hl
    split at hl
    · rename_i hcr
      refine hskip line hl ?_ (List.infix_refl line)
      cases cs with
      | nil => rfl
      | cons d cs =>
        rw [List.takeWhile_cons_of_neg]
        rw [Option.some.inj hcr.2]
        decide
    · split at hl
      · rcases List.mem_cons.mp hl with rfl | hl
        · exact .inl (List.prefix_append _ _).isInfix
        · rcases ih [] l hl with h | h
          · exact .inr ((h.trans (List.takeWhile_prefix _).isInfix).trans (List.suffix_cons c cs).isInfix)
          · exact .inr (h.trans (List.suffix_cons c cs).isInfix)
      · rename_i hbreak
        rcases ih (line ++ [c]) l hl with h | h
        · rw [List.takeWhile_cons_of_pos (by rw [Bool.eq_false_iff.mpr hbreak]; rfl)]
          rw [List.append_assoc, List.singleton_append] at h
          exact .inl h
        · exact .inr (h.trans (List.suffix_cons c cs).isInfix)

theorem infix_of_mem_splitlines {l cs : List Char} (h : l ∈ splitlines cs) : l <:+: cs := by
  rcases infix_of_mem_splitlinesFrom [] cs l h with h | h
  · exact h.trans (List.takeWhile_prefix _).isInfix
  · exact h

theorem blank_isSpace {c : Char} (h : (c = ' ' || c = '\t') = true) : isSpace c = true := by
  rcases Bool.or_eq_true_iff.mp h with h | h
  · rw [of_decide_eq_true h]
    decide
  · rw [of_decide_eq_true h]
    decide

theorem filter_blanks (line : List Char) :
    (BLANKS.sub (fun _ => [' ']) line).filter (fun c => !isSpace c) = line.filter fun c => !isSpace c := by
  refine Re.filter_sub _ (fun w hw => ?_) line
  have hnil : w.filter (fun c => !isSpace c) = [] :=
    List.filter_eq_nil_iff.mpr fun c hc => by rw [blank_isSpace (hw.2 c hc)]; decide
  rw [hnil]
  rfl

theorem intercalate_cons (l l' : List Char) (ls : List (List Char)) :
    ['\n'].intercalate (l :: l' :: ls) = l ++ '\n' :: ['\n'].intercalate (l' :: ls) := by
  simp [List.intercalate]

theorem filter_intercalate (ls : List (List Char)) :
    (['\n'].intercalate ls).filter (fun c => !isSpace c) = ls.flatten.filter fun c => !isSpace c := by
  induction ls with
  | nil => rfl
  | cons l ls ih =>
    cases ls with
    | nil => simp [List.intercalate]
    | cons l' ls =>
      rw [intercalate_cons, List.filter_append, List.filter_cons_of_neg (by decide), ih, List.flatten_cons (L := l' :: ls),
        List.filter_append]

/-- The lines keep everything that is no blank. -/
theorem filter_normalised (cs : List Char) :
    (normalised cs).filter (fun c => !isSpace c) = cs.filter fun c => !isSpace c := by
  have hlines : ∀ ls : List (List Char),
      (((ls.map fun line => stripChars (BLANKS.sub (fun _ => [' ']) line)).filter (· ≠ [])).flatten).filter
        (fun c => !isSpace c) = ls.flatten.filter fun c => !isSpace c := by
    intro ls
    induction ls with
    | nil => rfl
    | cons l ls ih =>
      have hline : (stripChars (BLANKS.sub (fun _ => [' ']) l)).filter (fun c => !isSpace c) =
          l.filter fun c => !isSpace c := (filter_stripChars _).trans (filter_blanks l)
      rw [List.map_cons, List.flatten_cons, List.filter_append, ← hline]
      by_cases hne : stripChars (BLANKS.sub (fun _ => [' ']) l) = []
      · rw [List.filter_cons_of_neg (by simpa using hne), ih, hne]
        rfl
      · rw [List.filter_cons_of_pos (by simpa using hne), List.flatten_cons, List.filter_append, ih]
  unfold normalised
  rw [filter_intercalate, hlines]
  exact (filter_splitlinesFrom [] cs).trans (by rw [List.nil_append])

/-- A word without blanks that the lines have was there before. -/
theorem infix_of_normalised {m cs : List Char} (hm : ∀ c ∈ m, isSpace c = false) (hne : m ≠ [])
    (h : m <:+: normalised cs) : m <:+: cs := by
  have hno : ∀ c, isSpace c = true → c ∉ m := fun c hc hmem => by
    rw [hm c hmem] at hc
    cases hc
  have hline : ∀ ls : List (List Char), m <:+: ['\n'].intercalate ls → ∃ l ∈ ls, m <:+: l := by
    intro ls
    induction ls with
    | nil => exact fun h => absurd (List.infix_nil.mp h) hne
    | cons l ls ih =>
      cases ls with
      | nil =>
        intro h
        refine ⟨l, List.mem_cons_self, ?_⟩
        simpa [List.intercalate] using h
      | cons l' ls =>
        intro h
        rw [intercalate_cons] at h
        rcases infix_of_infix_append_cons (hno '\n' (by decide)) l h with h | h
        · exact ⟨l, List.mem_cons_self, h⟩
        · obtain ⟨k, hk, hmk⟩ := ih h
          exact ⟨k, List.mem_cons_of_mem l hk, hmk⟩
  obtain ⟨l, hl, hml⟩ := hline _ h
  obtain ⟨line, hlines, rfl⟩ := List.mem_map.mp (List.mem_filter.mp hl).1
  have hfence : ∀ w : List Char, (fun _ => [' ']) w = w ∨ Fence (α := Char) ({m} : Set (List Char)) ((fun _ => [' ']) w) := by
    refine fun w => .inr (fence_one fun k hk => ?_)
    rw [Set.mem_singleton_iff.mp hk]
    exact hno ' ' (by decide)
  have hblanks := Re.infix_of_scan (Set.mem_singleton m) hfence 0 none line (hml.trans (infix_stripChars _))
  exact hblanks.trans (infix_of_mem_splitlines hlines)

/-! ## E-mail addresses -/

/-- The characters of an address. -/
def inEmail (lib : Stdlib) (c : Char) : Bool := lib.word c || c = '.' || c = '+' || c = '-' || c = '@'

theorem inEmail_part {c : Char} (h : (lib.word c || c = '-') = true) : inEmail lib c = true := by
  unfold inEmail
  rcases Bool.or_eq_true_iff.mp h with h | h <;> simp [h]

theorem mem_email {m : List Char} (h : m ∈ (EMAIL lib).language) : '@' ∈ m ∧ ∀ c ∈ m, inEmail lib c = true := by
  obtain ⟨name, ⟨_, hname⟩, _, ⟨_, ⟨a, ha, rfl⟩, _, ⟨domain, ⟨_, hdomain⟩, parts, hparts, rfl⟩, rfl⟩, rfl⟩ := h
  have hpart : ∀ w ∈ (Re.seq (.one fun c => decide (c = '.')) (.many 1 fun c => lib.word c || decide (c = '-'))).language,
      ∀ c ∈ w, inEmail lib c = true := by
    rintro _ ⟨_, ⟨d, hd, rfl⟩, w, ⟨_, hw⟩, rfl⟩ c hc
    rcases List.mem_cons.mp hc with rfl | hc
    · rw [of_decide_eq_true hd]
      unfold inEmail
      simp
    · exact inEmail_part (hw c hc)
  have hall : ∀ c ∈ parts, inEmail lib c = true := by
    obtain ⟨first, hfirst, more, hmore, rfl⟩ := hparts
    obtain ⟨ws, rfl, hws⟩ := Language.mem_kstar.mp hmore
    intro c hc
    rcases List.mem_append.mp hc with hc | hc
    · exact hpart first hfirst c hc
    · obtain ⟨w, hw, hc⟩ := List.mem_flatten.mp hc
      exact hpart w (hws w hw) c hc
  have hat : a = '@' := of_decide_eq_true ha
  subst hat
  refine ⟨List.mem_append_right _ List.mem_cons_self, fun c hc => ?_⟩
  rcases List.mem_append.mp hc with hc | hc
  · exact Bool.or_eq_true_iff.mpr (.inl (hname c hc))
  · rcases List.mem_append.mp hc with hc | hc
    · rw [List.mem_singleton.mp hc]
      unfold inEmail
      simp
    · rcases List.mem_append.mp hc with hc | hc
      · exact inEmail_part (hdomain c hc)
      · exact hall c hc

theorem not_mem_email {c : Char} (hc : inEmail lib c = false) : ∀ m ∈ (EMAIL lib).language, c ∉ m := by
  intro m hm hmem
  rw [(mem_email hm).2 c hmem] at hc
  cases hc

theorem inEmail_of_ascii (c : Char) (hc : c.toNat < 128) (hword : (c.isAlphanum || c = '_') = false)
    (hno : (c = '.' || c = '+' || c = '-' || c = '@') = false) : inEmail lib c = false := by
  unfold inEmail
  rw [Stdlib.word_of_ascii c hc hword, Bool.false_or]
  exact hno

theorem inEmail_space {c : Char} (hc : isSpace c = true) : inEmail lib c = false := by
  have hother : (c = '.' || c = '+' || c = '-' || c = '@') = false := by
    rw [Bool.eq_false_iff]
    intro h
    have hcases : ((c = '.' ∨ c = '+') ∨ c = '-') ∨ c = '@' := by simpa using h
    rcases hcases with ((rfl | rfl) | rfl) | rfl <;> revert hc <;> decide
  unfold inEmail
  rw [lib.word_space c hc, Bool.false_or]
  exact hother

/-- A mask in brackets keeps addresses apart. -/
theorem fence_mask {mid : List Char} (hmid : '@' ∉ mid) : Fence (EMAIL lib).language ('[' :: (mid ++ [']'])) := by
  refine fence_between (not_mem_email (inEmail_of_ascii '[' (by decide) (by decide) (by decide)))
    (not_mem_email (inEmail_of_ascii ']' (by decide) (by decide) (by decide))) fun m hm h => ?_
  exact hmid (h.mem (mem_email hm).1)

theorem plain_email : (EMAIL lib).plain = true := rfl

theorem nil_not_mem_email : [] ∉ (EMAIL lib).language := fun h => List.not_mem_nil (mem_email h).1

/-- No address is left. -/
theorem no_email (body : Option String) : ∀ m ∈ (EMAIL lib).language, ¬ m <:+: (commentText lib body).toList := by
  intro m hm h
  have hspace : ∀ c ∈ m, isSpace c = false := by
    intro c hc
    cases hspace : isSpace c with
    | false => rfl
    | true => exact absurd hc (not_mem_email (inEmail_space hspace) m hm)
  have hne : m ≠ [] := fun heq => nil_not_mem_email (heq ▸ hm)
  unfold commentText at h
  rw [String.toList_ofList] at h
  have hphones := infix_of_normalised hspace hne h
  have hfence : ∀ w, maskPhone lib w = w ∨ Fence (EMAIL lib).language (maskPhone lib w) := by
    intro w
    unfold maskPhone
    split
    · exact .inr (@fence_mask lib ['p', 'h', 'o', 'n', 'e'] (by decide))
    · exact .inl rfl
  have hemails := Re.infix_of_scan hm hfence 0 none _ hphones
  exact Re.not_infix_sub plain_email nil_not_mem_email
    (fun _ => @fence_mask lib ['e', 'm', 'a', 'i', 'l'] (by decide)) _ m hm hemails

/-! ## What is kept -/

/-- A text with words of a language replaced, and everything else as it was. -/
def Replaces (L : Language Char) (mask s t : List Char) : Prop :=
  ∃ pieces : List (Piece Char), s = pieces.flatMap Piece.source ∧ t = pieces.flatMap (Piece.shown fun _ => mask) ∧
    ∀ w, .hit w ∈ pieces → w ∈ L

theorem replaces_sub (r : Re Char) (mask s : List Char) : Replaces r.language mask s (r.sub (fun _ => mask) s) := by
  refine ⟨r.scan 0 none s, ?_, rfl, fun w hw => (r.scan_hits 0 none s w hw).1⟩
  rw [r.scan_source, List.drop_zero]

/-- A number of seven digits and more with its sign. -/
def PhoneText (lib : Stdlib) : Language Char :=
  {w | ∃ plus run, w = plus ++ run ∧ (plus = [] ∨ plus = ['+']) ∧ (∀ c ∈ run, inRun lib c = true) ∧
    7 ≤ run.countP lib.digit ∧ (∃ d ∈ run.head?, lib.digit d = true) ∧ ∃ e ∈ run.getLast?, lib.digit e = true}

theorem mem_phoneText {w : List Char} (h : w ∈ (PHONE lib).language) (hcount : 7 ≤ w.countP lib.isdigit) :
    w ∈ PhoneText lib := by
  obtain ⟨plus, d, mid, e, rfl, hplus, hd, he, _, hmid⟩ := mem_phone h
  have hrun : ∀ c ∈ d :: (mid ++ [e]), inRun lib c = true := by
    intro c hc
    rcases List.mem_cons.mp hc with rfl | hc
    · exact inRun_digit hd
    · rcases List.mem_append.mp hc with hc | hc
      · exact hmid c hc
      · rw [List.mem_singleton.mp hc]
        exact inRun_digit he
  refine ⟨plus, d :: (mid ++ [e]), rfl, hplus, hrun, ?_, ⟨d, rfl, hd⟩, e, ?_, he⟩
  · have hzero : plus.countP lib.isdigit = 0 := by
      rcases hplus with rfl | rfl
      · rfl
      · exact List.countP_eq_zero.mpr fun c hc => by
          rw [List.mem_singleton.mp hc, lib.isdigit_ascii '+' (by decide)]
          decide
    rw [List.countP_append, hzero, Nat.zero_add] at hcount
    rwa [List.countP_congr fun c hc => by rw [isdigit_of_inRun (hrun c hc)]] at hcount
  · rw [← List.cons_append, List.getLast?_append]
    rfl

theorem replaces_phones (s : List Char) : Replaces (PhoneText lib) PHONE_MASK s ((PHONE lib).sub (maskPhone lib) s) := by
  have hpieces : ∀ pieces : List (Piece Char), (∀ w, .hit w ∈ pieces → w ∈ (PHONE lib).language) →
      Replaces (PhoneText lib) PHONE_MASK (pieces.flatMap Piece.source) (pieces.flatMap (Piece.shown (maskPhone lib))) := by
    intro pieces hpieces
    induction pieces with
    | nil => exact ⟨[], rfl, rfl, fun w hw => absurd hw List.not_mem_nil⟩
    | cons x pieces ih =>
      obtain ⟨rest, hsource, hshown, hhits⟩ := ih fun w hw => hpieces w (List.mem_cons_of_mem x hw)
      have hkept : ∀ w : List Char, Replaces (PhoneText lib) PHONE_MASK (w ++ pieces.flatMap Piece.source)
          (w ++ pieces.flatMap (Piece.shown (maskPhone lib))) := by
        intro w
        refine ⟨w.map .kept ++ rest, ?_, ?_, fun v hv => ?_⟩
        · rw [List.flatMap_append, hsource, List.flatMap_map]
          exact congrArg (· ++ _) (List.flatMap_singleton' w).symm
        · rw [List.flatMap_append, hshown, List.flatMap_map]
          exact congrArg (· ++ _) (List.flatMap_singleton' w).symm
        · rcases List.mem_append.mp hv with hv | hv
          · obtain ⟨c, _, hc⟩ := List.mem_map.mp hv
            cases hc
          · exact hhits v hv
      rw [List.flatMap_cons, List.flatMap_cons]
      cases x with
      | kept c => exact hkept [c]
      | hit w =>
        show Replaces _ _ (w ++ _) (maskPhone lib w ++ _)
        unfold maskPhone
        split
        · rename_i hcount
          refine ⟨.hit w :: rest, ?_, ?_, fun v hv => ?_⟩
          · rw [List.flatMap_cons, ← hsource]
            rfl
          · rw [List.flatMap_cons, ← hshown]
            rfl
          · rcases List.mem_cons.mp hv with heq | hv
            · cases heq
              exact mem_phoneText (hpieces w List.mem_cons_self) hcount
            · exact hhits v hv
        · exact hkept w
  have hscan := hpieces _ fun w hw => ((PHONE lib).scan_hits 0 none s w hw).1
  rwa [Re.scan_source, List.drop_zero] at hscan

end SalesDashboard.NpsRatings
