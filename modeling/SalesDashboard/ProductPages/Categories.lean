import SalesDashboard.ProductPages.Rules

/-! The category tree behind the full paths, and how far the paths tell who is under whom. -/

namespace SalesDashboard.ProductPages

structure Category where
  id : Int
  parent : Option Int
  name : String
  path : String
  deriving DecidableEq

/-- Categories with their full paths. -/
structure CategoryTree where
  categories : List Category
  ids : (categories.map (·.id)).Nodup
  root : ∀ c ∈ categories, c.parent = none → c.path = c.name
  child : ∀ c ∈ categories, ∀ p, c.parent = some p →
    ∃ q ∈ categories, q.id = p ∧ c.path = q.path ++ " / " ++ c.name

/-! ## The separator -/

def separator : List Char := [' ', '/', ' ']

theorem separator_eq : " / ".toList = separator := by decide

/-- A path that ends where a longer one has a separator ends at one of its names. -/
theorem prefix_of_separated {x q n : List Char} (hn : ¬ separator <:+: ' ' :: n)
    (hq : ∀ r, q ≠ r ++ [' ', '/']) (h : x ++ separator <+: q ++ separator ++ n) :
    x = q ∨ x ++ separator <+: q := by
  have hown : q ++ separator <+: q ++ separator ++ n := List.prefix_append _ _
  rcases List.prefix_or_prefix_of_prefix h hown with ⟨z, hz⟩ | ⟨z, hz⟩
  · rcases List.eq_nil_or_concat z with rfl | ⟨z, c, rfl⟩
    · rw [List.append_nil] at hz
      exact .inl (List.append_cancel_right hz)
    rcases List.eq_nil_or_concat z with rfl | ⟨z, b, rfl⟩
    · have hsplit : (x ++ [' ']) ++ ['/', ' ', c] = q ++ separator := by rw [← hz]; simp [separator]
      have hlast := (List.append_inj' hsplit rfl).2
      simp [separator] at hlast
    rcases List.eq_nil_or_concat z with rfl | ⟨z, a, rfl⟩
    · have hsplit : (x ++ [' ', '/']) ++ [' ', b, c] = q ++ separator := by rw [← hz]; simp [separator]
      exact absurd (List.append_inj' hsplit rfl).1.symm (hq x)
    · have hsplit : (x ++ separator ++ z) ++ [a, b, c] = q ++ separator := by rw [← hz]; simp
      exact .inr ⟨z, (List.append_inj' hsplit rfl).1⟩
  · obtain ⟨w, hw⟩ := h
    rw [← hz, List.append_assoc] at hw
    have hzn : z <+: n := ⟨w, List.append_cancel_left hw⟩
    rcases List.eq_nil_or_concat z with rfl | ⟨z, c, rfl⟩
    · rw [List.append_nil] at hz
      exact .inl (List.append_cancel_right hz).symm
    rcases List.eq_nil_or_concat z with rfl | ⟨z, b, rfl⟩
    · have hsplit : (q ++ [' ']) ++ ['/', ' ', c] = x ++ separator := by rw [← hz]; simp [separator]
      have hlast := (List.append_inj' hsplit rfl).2
      simp [separator] at hlast
    -- the last separator is in the name, with the blank before it
    have hsuffix : ' ' :: (z ++ [b] ++ [c]) <:+ x ++ separator := ⟨q ++ [' ', '/'], by rw [← hz]; simp [separator]⟩
    have hin : separator <:+ ' ' :: (z ++ [b] ++ [c]) :=
      List.suffix_of_suffix_length_le (List.suffix_append _ _) hsuffix (by simp [separator])
    simp only [List.concat_eq_append] at hzn
    exact absurd (hin.isInfix.trans ((List.prefix_cons_inj ' ').mpr hzn).isInfix) hn

theorem slash_mem_of_below {x n : List Char} (h : x ++ separator <+: n) : '/' ∈ n :=
  h.subset (by simp [separator])

theorem underPath_iff {path category : String} : underPath path category = true ↔
    category = path ∨ path.toList ++ separator <+: category.toList := by
  unfold underPath
  rw [Bool.or_eq_true, decide_eq_true_eq, List.isPrefixOf_iff_prefix, String.toList_append, separator_eq]

namespace CategoryTree

variable {t : CategoryTree}

def Parent (t : CategoryTree) (c p : Int) : Prop := ∃ cat ∈ t.categories, cat.id = c ∧ cat.parent = some p

/-- The category itself or one of its descendants. -/
def Below (t : CategoryTree) (c a : Int) : Prop := Relation.ReflTransGen t.Parent c a

theorem eq_of_id {c d : Category} (hc : c ∈ t.categories) (hd : d ∈ t.categories) (h : c.id = d.id) : c = d :=
  List.inj_on_of_nodup_map t.ids hc hd h

theorem toList_path {c q : Category} (h : c.path = q.path ++ " / " ++ c.name) :
    c.path.toList = q.path.toList ++ separator ++ c.name.toList := by
  rw [h, String.toList_append, String.toList_append, separator_eq]

/-- The path of a category goes through those of the categories above it. -/
theorem Below.underPath {c a : Category} (hc : c ∈ t.categories) (ha : a ∈ t.categories)
    (h : t.Below c.id a.id) : underPath a.path c.path = true := by
  rw [underPath_iff]
  generalize hid : c.id = id at h
  induction h using Relation.ReflTransGen.head_induction_on generalizing c with
  | refl => exact .inl (by rw [eq_of_id hc ha hid])
  | head hparent _ ih =>
    obtain ⟨cat, hcat, hcid, hp⟩ := hparent
    have hself := eq_of_id hcat hc (hcid.trans hid.symm)
    subst hself
    obtain ⟨q, hq, hqid, hpath⟩ := t.child cat hc _ hp
    have hlist := toList_path hpath
    refine .inr ?_
    rw [hlist, List.append_assoc]
    rcases ih hq hqid with heq | hpre
    · rw [heq, ← List.append_assoc]
      exact List.prefix_append _ _
    · exact hpre.trans (List.prefix_append _ _)

/-- A name between blanks. -/
def spaced (name : List Char) : List Char := ' ' :: name ++ [' ']

/-- Trees whose paths name their categories: no name, set between blanks, has a separator,
no two categories have one path, and none is called like the products without a category. -/
structure Separable (t : CategoryTree) : Prop where
  plain : ∀ c ∈ t.categories, ¬ separator <:+: spaced c.name.toList
  paths : ∀ c ∈ t.categories, ∀ d ∈ t.categories, c.path = d.path → c = d
  assigned : ∀ c ∈ t.categories, c.path ≠ UNASSIGNED

theorem Separable.path_ne_slash (h : t.Separable) {c : Category} (hc : c ∈ t.categories) (r : List Char) :
    c.path.toList ≠ r ++ [' ', '/'] := by
  intro heq
  cases hp : c.parent with
  | none =>
    rw [t.root c hc hp] at heq
    refine h.plain c hc ⟨' ' :: r, [], ?_⟩
    rw [spaced, heq]
    simp [separator]
  | some p =>
    obtain ⟨q, -, -, hpath⟩ := t.child c hc p hp
    rw [toList_path hpath] at heq
    by_cases hname : c.name.toList = []
    · rw [hname, List.append_nil] at heq
      have hsplit : (q.path.toList ++ [' ', '/']) ++ [' '] = (r ++ [' ']) ++ ['/'] := by
        simpa [separator] using heq
      simpa using (List.append_inj' hsplit rfl).2
    · have hown : spaced c.name.toList <:+ r ++ separator :=
        ⟨q.path.toList ++ [' ', '/'], by
          have hblank : q.path.toList ++ [' ', '/'] ++ spaced c.name.toList =
              q.path.toList ++ separator ++ c.name.toList ++ [' '] := by simp [spaced, separator]
          rw [hblank, heq]
          simp [separator]⟩
      have hlen : 0 < c.name.toList.length := List.length_pos_iff.mpr hname
      have hin : separator <:+ spaced c.name.toList :=
        List.suffix_of_suffix_length_le (List.suffix_append _ _) hown (by simp [separator, spaced]; omega)
      exact h.plain c hc hin.isInfix

/-- In such a tree a path goes through the paths of the categories above only. -/
theorem Separable.below_of_underPath (h : t.Separable) {c a : Category} (hc : c ∈ t.categories)
    (ha : a ∈ t.categories) (hunder : underPath a.path c.path = true) : t.Below c.id a.id := by
  rw [underPath_iff] at hunder
  induction hlen : c.path.toList.length using Nat.strong_induction_on generalizing c with
  | _ n ih =>
    subst hlen
    rcases hunder with heq | hpre
    · rw [h.paths c hc a ha heq]
      exact .refl
    cases hp : c.parent with
    | none =>
      rw [t.root c hc hp] at hpre
      have hin : c.name.toList <:+: spaced c.name.toList := ⟨[' '], [' '], rfl⟩
      exact absurd (((List.suffix_append _ _).isInfix.trans hpre.isInfix).trans hin) (h.plain c hc)
    | some p =>
      obtain ⟨q, hq, hqid, hpath⟩ := t.child c hc p hp
      have hlist := toList_path hpath
      rw [hlist] at hpre
      have hlt : q.path.toList.length < c.path.toList.length := by
        rw [hlist]
        simp [separator]
      have hstep : t.Parent c.id q.id := ⟨c, hc, rfl, hqid ▸ hp⟩
      have hunder : q.path = a.path ∨ a.path.toList ++ separator <+: q.path.toList := by
        have hleft : ¬ separator <:+: ' ' :: c.name.toList := fun hin =>
          h.plain c hc (hin.trans (List.prefix_append _ _).isInfix)
        rcases prefix_of_separated hleft (h.path_ne_slash hq) hpre with heq | hpre
        · exact .inl (String.toList_inj.mp heq.symm)
        · exact .inr hpre
      exact .head hstep (ih _ hlt hq hunder rfl)

end CategoryTree

end SalesDashboard.ProductPages
