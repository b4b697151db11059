import SalesDashboard.Marcom.Parser

/-! What an accepted workbook says about the keys of its rows. The parser refuses
a repeated key of its own, which keeps a blank that ends a text; the key that
matches rows with stored ones trims it. A typed text ends in a blank only where its
cap cut it after one. -/

namespace SalesDashboard.Marcom

/-! ## The cells of a key -/

/-- A key field that is set, with a value of its type. -/
def KeyCell (type : FieldType) (c : Cell) : Prop :=
  (type = .int ∧ ∃ q, c = .num q) ∨
    ((type = .text ∨ type = .brand ∨ type = .category) ∧ ∃ s, c = .text s)

def ColKind.isNumber : ColKind → Bool
  | .year | .month => true
  | _ => false

def ColKind.isText : ColKind → Bool
  | .text | .brand | .category | .enum _ => true
  | _ => false

theorem keyFields_eq (t : TableId) : (tableSpec t).keyFields = (adapter t).keyFields := by
  cases t <;> rfl

/-- Every key field has a column of its type, which has to be filled in except for
the account name. -/
theorem keyColumns : ∀ t, ∀ k ∈ (adapter t).keyFields, ∃ c ∈ (tableSpec t).cols,
    (tableSpec t).cols.find? (·.field = k) = some c ∧
    (c.kind.isNumber = true ∧ (adapter t).typeOf k = .int ∨ c.kind.isText = true ∧
      ((adapter t).typeOf k = .text ∨ (adapter t).typeOf k = .brand ∨
        (adapter t).typeOf k = .category)) ∧
    (c.required = true ∨ t = .social ∧ k = .accountName ∧ (adapter t).typeOf k = .text) := by
  decide

theorem choose_text {p : Platform} {values : List String} {s : String} {code : IssueCode} {v : Cell}
    (h : choose p values s code = .ok v) : ∃ hit, v = .text hit ∧ p.toLowerCase hit = s := by
  unfold choose at h
  split at h
  · next hit hfind =>
    cases h
    exact ⟨hit, rfl, of_decide_eq_true (List.find?_some hfind :)⟩
  · cases h

theorem coerceText_text {p : Platform} {raw : RawValue} {v : Cell} (h : coerceText p raw = .ok v) :
    v = .text (sanitizeText (p.string raw)) := by
  unfold coerceText at h
  simp only at h
  split at h
  · cases h
  · cases h
    rfl

theorem coerce_number {p : Platform} {categories : List String} {kind : ColKind} {raw : RawValue}
    {v : Cell} (hkind : kind.isNumber = true) (h : coerce p categories kind raw = .ok v) :
    ∃ q, v = .num q := by
  cases kind <;> simp only [ColKind.isNumber, Bool.false_eq_true] at hkind
  case year =>
    simp only [coerce] at h
    split at h
    · cases h
    · next n _ =>
      split at h
      · cases h
      · split at h
        · cases h
        · cases h
          exact ⟨n, rfl⟩
  case month =>
    simp only [coerce] at h
    split at h
    · cases h
      exact ⟨_, rfl⟩
    · cases h

/-- A text column that is typed into; the others offer a list. -/
def ColKind.isTyped : ColKind → Bool
  | .text | .brand => true
  | _ => false

theorem coerce_text {p : Platform} {categories : List String} {kind : ColKind} {raw : RawValue}
    {v : Cell} (hkind : kind.isText = true) (h : coerce p categories kind raw = .ok v) :
    ∃ s, v = .text s ∧ (kind.isTyped = true ∧ s = sanitizeText (p.string raw) ∨
      p.toLowerCase s = listText p raw) := by
  cases kind <;> simp only [ColKind.isText, Bool.false_eq_true] at hkind <;> simp only [coerce] at h
  case text => exact ⟨_, coerceText_text h, .inl ⟨rfl, rfl⟩⟩
  case brand => exact ⟨_, coerceText_text h, .inl ⟨rfl, rfl⟩⟩
  case enum values =>
    obtain ⟨s, hs, hlist⟩ := choose_text h
    exact ⟨s, hs, .inr hlist⟩
  case category =>
    obtain ⟨s, hs, hlist⟩ := choose_text h
    exact ⟨s, hs, .inr hlist⟩

section Rows

variable {p : Platform} {opts : ParseOptions} {wb : Workbook} {t : TableId}

theorem keptRow_some {r : Nat} {d : Data} (h : keptRow p opts wb t r = some d) :
    d = fillAccount t (readData p opts wb t r) := by
  unfold keptRow at h
  simp only at h
  split at h
  · cases h
  · split at h
    · cases h
    · exact (Option.some.inj h).symm

theorem keptRow_of_empty {r : Nat} (h : isEmptyRow wb t r = true) : keptRow p opts wb t r = none :=
  if_pos h

/-- A row without issues has all its key fields. -/
theorem keyCell_of_clean {r : Nat} {d : Data} (hexcel : excelErrors wb t r = [])
    (hread : readIssues p opts wb t r = []) (h : keptRow p opts wb t r = some d) :
    ∀ k ∈ (adapter t).keyFields, KeyCell ((adapter t).typeOf k) (d k) := by
  intro k hk
  obtain ⟨c, hc, hfind, htype, hrequired⟩ := keyColumns t k hk
  have hnoExcel : (rawCell wb t r c).isErrorValue = false := by
    simpa using List.filterMap_eq_nil_iff.mp hexcel c hc
  have hok := List.filterMap_eq_nil_iff.mp hread c hc
  rw [keptRow_some h]
  cases hfield : readField p opts wb t r c with
  | error code =>
    rw [hfield] at hok
    cases hok
  | ok v =>
    have hdata : readData p opts wb t r k = v := by
      unfold readData
      rw [hfind]
      simp only [hfield]
    unfold fillAccount
    rw [hdata]
    unfold readField at hfield
    simp only at hfield
    split at hfield
    · -- nothing was typed, which only the account name allows
      rw [hnoExcel] at hfield
      rcases hrequired with hreq | ⟨rfl, rfl, htext⟩
      · rw [hreq] at hfield
        cases hfield
      · split at hfield
        · cases hfield
        · cases hfield
          rw [if_pos ⟨rfl, rfl, rfl⟩]
          exact Or.inr ⟨Or.inl htext, "", rfl⟩
    · rcases htype with ⟨hkind, hint⟩ | ⟨hkind, htext⟩
      · obtain ⟨q, rfl⟩ := coerce_number hkind hfield
        rw [if_neg (by simp)]
        exact Or.inl ⟨hint, q, rfl⟩
      · obtain ⟨s, rfl, -⟩ := coerce_text hkind hfield
        rw [if_neg (by simp)]
        exact Or.inr ⟨htext, s, rfl⟩

/-! ## The parser's key -/

/-- Trimming changes no key text once it is in lower case. -/
def Trimmed (p : Platform) (a : Adapter) (d : Data) : Prop :=
  ∀ k ∈ a.keyFields, ∀ s, d k = .text s → p.toLowerCase (jsTrim s) = p.toLowerCase s

/-- Where trimming changes nothing, the parser's key is the key of the row. -/
theorem parserKey_eq_keyOf {d : Data}
    (hcells : ∀ k ∈ (adapter t).keyFields, KeyCell ((adapter t).typeOf k) (d k))
    (htrim : Trimmed p (adapter t) d) :
    parserKey p t d = keyOf (jsText p.toLowerCase) (adapter t) d := by
  unfold parserKey keyOf
  rw [keyFields_eq]
  refine congrArg _ (List.map_congr_left fun k hk => ?_)
  change p.toLowerCase _ = p.toLowerCase _
  rcases hcells k hk with ⟨hint, q, hq⟩ | ⟨htext, s, hs⟩
  · rw [hint, hq]
    simp [normalize, Cell.toText, Cell.number]
  · rw [hs]
    by_cases hempty : s = ""
    · subst hempty
      simp [normalize, Cell.toText]
    · rcases htext with h | h | h <;>
        simp [h, normalize, Cell.toText, hempty, jsText, htrim k hk s hs]

/-- A typed key text of the row is longer than its cap, which cuts it right after a blank. -/
def CutKey (p : Platform) (wb : Workbook) (t : TableId) (r : Nat) : Prop :=
  ∃ c ∈ (tableSpec t).cols, c.field ∈ (tableSpec t).keyFields ∧ c.kind.isTyped = true ∧
    cutAtBlank (p.string (rawCell wb t r c).value) = true

/-- A text chosen from a list is trimmed like the cell that names it. -/
theorem lower_trim_of_list (hlower : ∀ s, jsTrim (p.toLowerCase s) = p.toLowerCase (jsTrim s))
    {s : String} {raw : RawValue} (h : p.toLowerCase s = listText p raw) :
    p.toLowerCase (jsTrim s) = p.toLowerCase s := by
  rw [← hlower, h, listText, hlower]
  refine congrArg p.toLowerCase ?_
  unfold jsTrim
  rw [String.toList_ofList, trimChars_trimChars]

theorem trimmed_of_uncut (hlower : ∀ s, jsTrim (p.toLowerCase s) = p.toLowerCase (jsTrim s)) {r : Nat}
    {d : Data} (h : keptRow p opts wb t r = some d) (hcut : ¬ CutKey p wb t r) :
    Trimmed p (adapter t) d := by
  intro k hk s hs
  obtain ⟨c, hc, hfind, htype, -⟩ := keyColumns t k hk
  have hfield : c.field = k := by simpa using List.find?_some hfind
  rw [keptRow_some h] at hs
  unfold fillAccount at hs
  split at hs
  · cases hs
    rfl
  · unfold readData at hs
    rw [hfind] at hs
    simp only at hs
    split at hs
    · next v hread =>
      subst hs
      unfold readField at hread
      simp only at hread
      split at hread
      · split at hread <;> cases hread
      · rcases htype with ⟨hkind, -⟩ | ⟨hkind, -⟩
        · obtain ⟨q, hq⟩ := coerce_number hkind hread
          cases hq
        · obtain ⟨s', heq, htyped | hlist⟩ := coerce_text hkind hread
          · cases heq
            have huncut : cutAtBlank (p.string (rawCell wb t r c).value) = false := by
              rw [← Bool.not_eq_true]
              exact fun hat => hcut ⟨c, hc, keyFields_eq t ▸ hfield ▸ hk, htyped.1, hat⟩
            rw [htyped.2, (jsTrim_sanitizeText_iff _).mpr huncut]
          · cases heq
            exact lower_trim_of_list hlower hlist
    · cases hs

theorem hasKey_of_cells {d : Data}
    (hcells : ∀ k ∈ (adapter t).keyFields, KeyCell ((adapter t).typeOf k) (d k)) :
    hasKey t d = true := by
  unfold hasKey
  rw [keyFields_eq, List.all_eq_true]
  intro k hk
  rcases hcells k hk with ⟨-, q, hq⟩ | ⟨-, s, hs⟩
  · simp [hq]
  · simp [hs]

/-! ## The row loop -/

/-- The rows kept from the scanned ones. -/
def keptRows (p : Platform) (opts : ParseOptions) (wb : Workbook) (t : TableId) (rs : List Nat) :
    List ParsedRow :=
  rs.filterMap fun r => (keptRow p opts wb t r).map (⟨r, ·⟩)

/-- What the loop has done after the rows `rs`. -/
structure Scanned (p : Platform) (opts : ParseOptions) (wb : Workbook) (t : TableId) (rs : List Nat)
    (st : TableState) : Prop where
  rows : st.rows = keptRows p opts wb t rs
  cells : st.issues = [] → ∀ row ∈ st.rows, ∀ k ∈ (adapter t).keyFields,
    KeyCell ((adapter t).typeOf k) (row.data k)
  keys : st.issues = [] → (st.rows.map (parserKey p t ·.data)).Nodup
  seen : st.issues = [] → ∀ key, key ∈ st.seen.map Prod.fst ↔ key ∈ st.rows.map (parserKey p t ·.data)

theorem keptRows_append {rs : List Nat} {r : Nat} :
    keptRows p opts wb t (rs ++ [r]) =
      keptRows p opts wb t rs ++ ((keptRow p opts wb t r).map (⟨r, ·⟩)).toList := by
  unfold keptRows
  rw [List.filterMap_append]
  cases hkept : keptRow p opts wb t r <;> simp [hkept]

/-- A row that is not kept leaves the rows and the keys as they are. -/
theorem Scanned.skip {rs : List Nat} {st : TableState} (h : Scanned p opts wb t rs st) {r : Nat}
    (hkept : keptRow p opts wb t r = none) {st' : TableState} {more : List Issue}
    (hissues : st'.issues = st.issues ++ more) (hrows : st'.rows = st.rows)
    (hseen : st'.seen = st.seen) : Scanned p opts wb t (rs ++ [r]) st' := by
  have hclean : st'.issues = [] → st.issues = [] := by
    intro h'
    rw [hissues] at h'
    exact (List.append_eq_nil_iff.mp h').1
  constructor
  · rw [hrows, h.rows, keptRows_append, hkept]
    simp
  · intro hnil
    rw [hrows]
    exact h.cells (hclean hnil)
  · intro hnil
    rw [hrows]
    exact h.keys (hclean hnil)
  · intro hnil
    rw [hrows, hseen]
    exact h.seen (hclean hnil)

theorem Scanned.turn {rs : List Nat} {st : TableState} (h : Scanned p opts wb t rs st) (r : Nat) :
    Scanned p opts wb t (rs ++ [r]) (rowTurn p opts wb t st r) := by
  unfold rowTurn
  simp only
  split
  · next hempty => exact h.skip (keptRow_of_empty hempty) rfl rfl rfl
  · cases hkept : keptRow p opts wb t r with
    | none => exact h.skip hkept rfl rfl rfl
    | some data =>
      simp only
      -- without an issue the row has all its key fields
      have hclean : ∀ {more : List Issue},
          st.issues ++ excelErrors wb t r ++ (rowIssues p opts wb t r data ++ more) = [] →
          st.issues = [] ∧ more = [] ∧
            ∀ k ∈ (adapter t).keyFields, KeyCell ((adapter t).typeOf k) (data k) := by
        intro more hnil
        simp only [List.append_eq_nil_iff, rowIssues] at hnil
        obtain ⟨⟨hissues, hexcel⟩, ⟨⟨hread, -⟩, -⟩, hmore⟩ := hnil
        exact ⟨hissues, hmore, keyCell_of_clean hexcel hread hkept⟩
      have hrows : st.rows ++ [⟨r, data⟩] = keptRows p opts wb t (rs ++ [r]) := by
        rw [h.rows, keptRows_append, hkept]
        rfl
      cases hprev : st.seen.find? (·.1 = parserKey p t data) with
      | some prev =>
        -- a key used before is an issue
        have hdup : st.issues ++ excelErrors wb t r ++ (rowIssues p opts wb t r data ++
            if hasKey t data then [⟨t, r, 1, .duplicateKey prev.2⟩] else []) ≠ [] := by
          intro hnil
          obtain ⟨-, hmore, hcells⟩ := hclean hnil
          rw [hasKey_of_cells hcells] at hmore
          cases hmore
        exact ⟨hrows, fun hnil => absurd hnil hdup, fun hnil => absurd hnil hdup,
          fun hnil => absurd hnil hdup⟩
      | none =>
        have hfresh : parserKey p t data ∉ st.seen.map Prod.fst := by
          intro hmem
          obtain ⟨e, he, hkey⟩ := List.mem_map.mp hmem
          simpa [hkey] using List.find?_eq_none.mp hprev e he
        refine ⟨hrows, ?_, ?_, ?_⟩
        · intro hnil row hrow
          obtain ⟨hissues, -, hcells⟩ := hclean hnil
          rcases List.mem_append.mp hrow with hrow | hrow
          · exact h.cells hissues row hrow
          · rw [List.mem_singleton.mp hrow]
            exact hcells
        · intro hnil
          obtain ⟨hissues, -, -⟩ := hclean hnil
          rw [List.map_append, List.map_singleton]
          refine (h.keys hissues).append (List.nodup_singleton _) ?_
          rw [List.disjoint_singleton]
          exact fun hmem => hfresh ((h.seen hissues _).mpr hmem)
        · intro hnil key
          obtain ⟨hissues, -, hcells⟩ := hclean hnil
          rw [hasKey_of_cells hcells]
          simp only [Option.map_none, Option.isNone_none, Bool.and_self, if_true, List.map_append,
            List.mem_append, h.seen hissues key, List.map_singleton, List.mem_singleton]

theorem Scanned.fold {rs : List Nat} {st : TableState} (h : Scanned p opts wb t rs st)
    (more : List Nat) : Scanned p opts wb t (rs ++ more) (more.foldl (rowTurn p opts wb t) st) := by
  induction more generalizing rs st with
  | nil => simpa using h
  | cons r more ih => simpa using ih (h.turn r)

theorem scanned_start : Scanned p opts wb t [] ⟨[], [], 0, 0, []⟩ :=
  ⟨rfl, (fun _ row hrow => by cases hrow), fun _ => List.nodup_nil, fun _ _ => Iff.rfl⟩

theorem scanned_parseTable : Scanned p opts wb t (scanRows wb t) (parseTable p opts wb t) :=
  scanned_start.fold (scanRows wb t)

end Rows

/-! ## Keys of an accepted workbook -/

/-- No two rows of a table are one stored record, so that none of them is inserted
next to another. -/
def OnePerRecord (js : JsText) (a : Adapter) (rows : List ParsedRow) : Prop :=
  (rows.map (keyOf js a ·.data)).Nodup ∧
    ∀ current, ((diffTable js a current [] rows).inserts.map (keyOf js a ·.data)).Nodup

theorem inserts_sublist (js : JsText) (a : Adapter) (current : List CurrentRow) (invalid : List Nat)
    (rows : List ParsedRow) : (diffTable js a current invalid rows).inserts.Sublist rows := by
  induction rows with
  | nil => exact List.Sublist.refl _
  | cons row rows ih =>
    unfold diffTable
    simp only
    split
    · exact ih.cons row
    · split
      · exact ih.cons_cons row
      · split
        · exact ih.cons row
        · exact ih.cons row

section Tables

variable {p : Platform} {opts : ParseOptions} {wb : Workbook} {t : TableId}

theorem mem_keptRows {rs : List Nat} {row : ParsedRow} :
    row ∈ keptRows p opts wb t rs ↔
      row.rowNumber ∈ rs ∧ keptRow p opts wb t row.rowNumber = some row.data := by
  unfold keptRows
  simp only [List.mem_filterMap, Option.map_eq_some_iff]
  constructor
  · rintro ⟨r, hr, d, hd, rfl⟩
    exact ⟨hr, hd⟩
  · rintro ⟨hr, hd⟩
    exact ⟨_, hr, _, hd, rfl⟩

/-- The rows of an accepted table have the keys that the parser told apart. -/
theorem onePerRecord_of_uncut (hlower : ∀ s, jsTrim (p.toLowerCase s) = p.toLowerCase (jsTrim s))
    (hok : (parseTable p opts wb t).issues = [])
    (huncut : ∀ r ∈ scanRows wb t, ∀ d, keptRow p opts wb t r = some d → ¬ CutKey p wb t r) :
    OnePerRecord (jsText p.toLowerCase) (adapter t) (parseTable p opts wb t).rows := by
  have hscan : Scanned p opts wb t (scanRows wb t) (parseTable p opts wb t) := scanned_parseTable
  have hsame : (parseTable p opts wb t).rows.map (keyOf (jsText p.toLowerCase) (adapter t) ·.data) =
      (parseTable p opts wb t).rows.map (parserKey p t ·.data) := by
    refine List.map_congr_left fun row hrow => ?_
    have hkept := hrow
    rw [hscan.rows] at hkept
    obtain ⟨hr, hdata⟩ := mem_keptRows.mp hkept
    exact (parserKey_eq_keyOf (hscan.cells hok row hrow)
      (trimmed_of_uncut hlower hdata (huncut _ hr _ hdata))).symm
  have hnodup : ((parseTable p opts wb t).rows.map
      (keyOf (jsText p.toLowerCase) (adapter t) ·.data)).Nodup := by
    rw [hsame]
    exact hscan.keys hok
  exact ⟨hnodup, fun current => hnodup.sublist ((inserts_sublist _ _ _ _ _).map _)⟩

end Tables

/-- **A workbook without issues has one row for each stored record**, where no kept row
has a key text that was cut right after a blank. Lower-casing leaves the blanks at the
ends of a text in place. -/
theorem accepted_onePerRecord (p : Platform) (opts : ParseOptions) (wb : Workbook)
    (hlower : ∀ s, jsTrim (p.toLowerCase s) = p.toLowerCase (jsTrim s))
    (hok : (parseMarcomWorkbook p opts wb).issues = [])
    (huncut : ∀ t, ∀ r ∈ scanRows wb t, ∀ d, keptRow p opts wb t r = some d → ¬ CutKey p wb t r) :
    ∀ t, OnePerRecord (jsText p.toLowerCase) (adapter t)
      ((parseMarcomWorkbook p opts wb).tables t).rows := by
  intro t
  have hall := (List.append_eq_nil_iff.mp hok).1
  exact onePerRecord_of_uncut hlower (List.flatMap_eq_nil_iff.mp hall t (mem_tableIds t)) (huncut t)

/-! ## Workbooks with two events -/

section Clean

variable {p : Platform} {opts : ParseOptions} {wb : Workbook} {t : TableId}

theorem Scanned.turn_issues {rs : List Nat} {st : TableState} (h : Scanned p opts wb t rs st)
    (hok : st.issues = []) {r : Nat} (hexcel : excelErrors wb t r = [])
    (hclean : ∀ d, keptRow p opts wb t r = some d → rowIssues p opts wb t r d = [])
    (hkeys : ((keptRows p opts wb t (rs ++ [r])).map (parserKey p t ·.data)).Nodup) :
    (rowTurn p opts wb t st r).issues = [] := by
  unfold rowTurn
  simp only [hok, hexcel, List.append_nil]
  split
  · rfl
  · cases hkept : keptRow p opts wb t r with
    | none => rfl
    | some data =>
      have hfresh : st.seen.find? (·.1 = parserKey p t data) = none := by
        rw [List.find?_eq_none]
        intro e he hkey
        rw [keptRows_append, hkept, List.map_append] at hkeys
        refine List.disjoint_of_nodup_append hkeys ?_ (List.mem_singleton.mpr rfl)
        rw [← h.rows, ← h.seen hok]
        exact List.mem_map.mpr ⟨e, he, of_decide_eq_true hkey⟩
      simp only [hclean data hkept, hfresh]
      rfl

/-- A table whose rows have no issues of their own, and no parser key twice, is
accepted. -/
theorem parseTable_issues
    (hclean : ∀ r ∈ scanRows wb t, excelErrors wb t r = [] ∧
      ∀ d, keptRow p opts wb t r = some d → rowIssues p opts wb t r d = [])
    (hkeys : ((keptRows p opts wb t (scanRows wb t)).map (parserKey p t ·.data)).Nodup) :
    (parseTable p opts wb t).issues = [] := by
  have hfold : ∀ (more rs : List Nat) (st : TableState), Scanned p opts wb t rs st →
      st.issues = [] → rs ++ more = scanRows wb t →
      (more.foldl (rowTurn p opts wb t) st).issues = [] := by
    intro more
    induction more with
    | nil => exact fun _ _ _ hok _ => hok
    | cons r more ih =>
      intro rs st hst hok hsplit
      have hr : r ∈ scanRows wb t := hsplit ▸ by simp
      have hprefix : rs ++ [r] ++ more = scanRows wb t := by simpa using hsplit
      refine ih (rs ++ [r]) _ (hst.turn r) ?_ hprefix
      refine hst.turn_issues hok (hclean r hr).1 (hclean r hr).2 (hkeys.sublist ?_)
      rw [← hprefix]
      exact ((List.sublist_append_left _ _).filterMap _).map _
  exact hfold _ [] _ scanned_start rfl rfl

end Clean

def asciiPlatform : Platform := ⟨asciiText.toLowerCase, numberText, fun _ => "Invalid Date"⟩

def plainOptions : ParseOptions := ⟨false, [], [], none⟩

def typed (s : String) : SheetCell := ⟨.plain (.text s), false⟩

def untyped : SheetCell := ⟨.plain .null, false⟩

/-- The cells of an event's row, by column. -/
def eventCell (name : String) : Nat → SheetCell
  | 1 => typed name
  | 2 => typed "6-Launch & Opening"
  | 3 => typed "Xtreme"
  | 4 => typed "2026-09-01"
  | 6 => typed "Planned"
  | _ => untyped

/-- A workbook with two events of one brand, and nothing else. -/
def twoEvents (first second : String) : Workbook where
  located t := (tableSpec t).headerRow
  cell sheet r c :=
    if sheet = SHEET_P4 ∧ (r = 34 ∨ r = 35) then eventCell (if r = 34 then first else second) c
    else untyped

/-- The event as it is read from a row of that workbook. -/
def readEvent (name : String) : Data := fun f =>
  match f with
  | .name => .text name
  | .eventType => .text "6-Launch & Opening"
  | .brand => .text "Xtreme"
  | .plannedDate => .text "2026-09-01"
  | .status => .text "Planned"
  | _ => .null

section TwoEvents

variable {first second : String}

theorem rawCell_other {t : TableId} {r : Nat} (h : ¬ (t = .events ∧ (r = 34 ∨ r = 35)))
    (hr : r ∈ scanRows (twoEvents first second) t) (c : ColSpec) :
    rawCell (twoEvents first second) t r c = ⟨.null, false⟩ := by
  have hcell : (twoEvents first second).cell (tableSpec t).sheet r c.col = untyped := by
    refine if_neg ?_
    rintro ⟨hsheet, hrow⟩
    simp only [scanRows, twoEvents, List.mem_range'_1] at hr
    cases t with
    | events => exact h ⟨rfl, hrow⟩
    | trade =>
      simp only [tableSpec] at hr
      omega
    | _ => exact absurd hsheet (by decide)
  unfold rawCell
  rw [hcell]
  rfl

theorem excelErrors_other {t : TableId} {r : Nat} (h : ¬ (t = .events ∧ (r = 34 ∨ r = 35)))
    (hr : r ∈ scanRows (twoEvents first second) t) : excelErrors (twoEvents first second) t r = [] := by
  unfold excelErrors
  rw [List.filterMap_eq_nil_iff]
  intro c _
  rw [rawCell_other h hr c]
  rfl

theorem keptRow_other {p : Platform} {opts : ParseOptions} {t : TableId} {r : Nat}
    (h : ¬ (t = .events ∧ (r = 34 ∨ r = 35))) (hr : r ∈ scanRows (twoEvents first second) t) :
    keptRow p opts (twoEvents first second) t r = none := by
  refine keptRow_of_empty ?_
  unfold isEmptyRow
  rw [Bool.or_eq_true]
  left
  rw [List.all_eq_true]
  intro c _
  rw [rawCell_other h hr c]
  rfl

theorem readField_typed {t : TableId} {r : Nat} (c : ColSpec) {s : String}
    (hcell : (twoEvents first second).cell (tableSpec t).sheet r c.col = typed s)
    (hblank : jsTrim s ≠ "") : readField asciiPlatform plainOptions (twoEvents first second) t r c =
      coerce asciiPlatform plainOptions.categories c.kind (.text s) := by
  unfold readField rawCell readCell
  rw [hcell]
  simp [typed, RawValue.orNull, RawValue.isNull, hblank]

/-- The cells of the two rows. -/
theorem readField_event {r : Nat} (hr : r = 34 ∨ r = 35) {name : String}
    (hname : (if r = 34 then first else second) = name) (hblank : jsTrim name ≠ "")
    (hclean : sanitizeText name ≠ "") : ∀ c ∈ (tableSpec .events).cols,
      readField asciiPlatform plainOptions (twoEvents first second) .events r c =
        .ok (readEvent (sanitizeText name) c.field) := by
  have hcell : ∀ c, (twoEvents first second).cell (tableSpec .events).sheet r c = eventCell name c := by
    intro c
    rw [← hname]
    exact if_pos ⟨rfl, hr⟩
  have htyped : ∀ c s v, eventCell name c.col = typed s → jsTrim s ≠ "" →
      coerce asciiPlatform plainOptions.categories c.kind (.text s) = .ok v →
      readField asciiPlatform plainOptions (twoEvents first second) .events r c = .ok v := by
    intro c s v hs hblank hv
    rw [readField_typed c ((hcell c.col).trans hs) hblank, hv]
  intro c hc
  simp only [tableSpec, List.mem_cons, List.not_mem_nil, or_false] at hc
  rcases hc with rfl | rfl | rfl | rfl | rfl | rfl
  · refine htyped _ name _ rfl hblank ?_
    simp only [coerce, coerceText, Platform.string, hclean, if_false, readEvent]
  · exact htyped _ "6-Launch & Opening" (.text "6-Launch & Opening") rfl (by decide +kernel)
      (by decide +kernel)
  · exact htyped _ "Xtreme" (.text "Xtreme") rfl (by decide +kernel) (by decide +kernel)
  · exact htyped _ "2026-09-01" (.text "2026-09-01") rfl (by decide +kernel) (by decide +kernel)
  · unfold readField rawCell readCell
    rw [hcell 5]
    rfl
  · exact htyped _ "Planned" (.text "Planned") rfl (by decide +kernel) (by decide +kernel)

theorem readData_event {r : Nat} (hr : r = 34 ∨ r = 35) {name : String}
    (hname : (if r = 34 then first else second) = name) (hblank : jsTrim name ≠ "")
    (hclean : sanitizeText name ≠ "") :
    readData asciiPlatform plainOptions (twoEvents first second) .events r =
      readEvent (sanitizeText name) := by
  have hfield := readField_event hr hname hblank hclean
  funext f
  unfold readData
  cases hfind : (tableSpec .events).cols.find? (·.field = f) with
  | none =>
    cases f <;> first | rfl | cases hfind
  | some c =>
    have hc := List.mem_of_find?_eq_some hfind
    have hf : c.field = f := by simpa using List.find?_some hfind
    simp only [hfield c hc, hf]

theorem eventCell_plain (name : String) (c : Nat) :
    (readCell (eventCell name c)).isErrorValue = false ∧ (eventCell name c).exampleFill = false := by
  unfold eventCell
  split <;> exact ⟨rfl, rfl⟩

/-- Both rows are kept, and no cell of theirs is at fault. -/
theorem keptRow_event {r : Nat} (hr : r = 34 ∨ r = 35) {name : String}
    (hname : (if r = 34 then first else second) = name) (hblank : jsTrim name ≠ "")
    (hclean : sanitizeText name ≠ "") :
    excelErrors (twoEvents first second) .events r = [] ∧
      rowIssues asciiPlatform plainOptions (twoEvents first second) .events r
        (readEvent (sanitizeText name)) = [] ∧
      keptRow asciiPlatform plainOptions (twoEvents first second) .events r =
        some (readEvent (sanitizeText name)) := by
  have hcell : ∀ c, (twoEvents first second).cell (tableSpec .events).sheet r c = eventCell name c := by
    intro c
    rw [← hname]
    exact if_pos ⟨rfl, hr⟩
  refine ⟨?_, ?_, ?_⟩
  · unfold excelErrors
    rw [List.filterMap_eq_nil_iff]
    intro c _
    unfold rawCell
    rw [hcell, (eventCell_plain name c.col).1]
    rfl
  · have hread : readIssues asciiPlatform plainOptions (twoEvents first second) .events r = [] := by
      unfold readIssues
      rw [List.filterMap_eq_nil_iff]
      intro c hc
      rw [readField_event hr hname hblank hclean c hc]
    unfold rowIssues
    rw [hread]
    rfl
  · have hfilled : isEmptyRow (twoEvents first second) .events r = false := by
      unfold isEmptyRow
      rw [Bool.or_eq_false_iff, List.all_eq_false]
      refine ⟨⟨⟨1, .name, .text, true⟩, by decide, ?_⟩, rfl⟩
      unfold rawCell
      rw [hcell]
      simp [readCell, eventCell, typed, RawValue.orNull, RawValue.isNull, hblank]
    have hgreen : isGreen (twoEvents first second) .events r = false := by
      unfold isGreen
      rw [List.any_eq_false]
      intro c _
      rw [hcell, (eventCell_plain name c.col).2]
      exact Bool.false_ne_true
    unfold keptRow
    rw [hfilled, hgreen, readData_event hr hname hblank hclean]
    rfl

theorem keptRows_other {p : Platform} {opts : ParseOptions} {t : TableId} (ht : t ≠ .events) :
    keptRows p opts (twoEvents first second) t (scanRows (twoEvents first second) t) = [] := by
  unfold keptRows
  rw [List.filterMap_eq_nil_iff]
  intro r hr
  rw [keptRow_other (fun h => ht h.1) hr]
  rfl

theorem keptRows_events (hfirst : jsTrim first ≠ "" ∧ sanitizeText first ≠ "")
    (hsecond : jsTrim second ≠ "" ∧ sanitizeText second ≠ "") :
    keptRows asciiPlatform plainOptions (twoEvents first second) .events
      (scanRows (twoEvents first second) .events) =
      [⟨34, readEvent (sanitizeText first)⟩, ⟨35, readEvent (sanitizeText second)⟩] := by
  have hscan : scanRows (twoEvents first second) .events = 34 :: 35 :: List.range' 36 28 := rfl
  have hrest : ∀ r ∈ List.range' 36 28, (keptRow asciiPlatform plainOptions
      (twoEvents first second) .events r).map (ParsedRow.mk r) = none := by
    intro r hr
    rw [keptRow_other (by rw [List.mem_range'_1] at hr; omega)
      (hscan ▸ List.mem_cons_of_mem _ (List.mem_cons_of_mem _ hr))]
    rfl
  have h34 : keptRow asciiPlatform plainOptions (twoEvents first second) .events 34 =
      some (readEvent (sanitizeText first)) :=
    (keptRow_event (Or.inl rfl) rfl hfirst.1 hfirst.2).2.2
  have h35 : keptRow asciiPlatform plainOptions (twoEvents first second) .events 35 =
      some (readEvent (sanitizeText second)) :=
    (keptRow_event (Or.inr rfl) rfl hsecond.1 hsecond.2).2.2
  unfold keptRows
  rw [hscan, List.filterMap_cons_some (by rw [h34]; rfl), List.filterMap_cons_some (by rw [h35]; rfl),
    List.filterMap_eq_nil_iff.mpr hrest]

/-- Two events whose names differ for the parser are accepted. -/
theorem twoEvents_accepted (hfirst : jsTrim first ≠ "" ∧ sanitizeText first ≠ "")
    (hsecond : jsTrim second ≠ "" ∧ sanitizeText second ≠ "")
    (hne : parserKey asciiPlatform .events (readEvent (sanitizeText first)) ≠
      parserKey asciiPlatform .events (readEvent (sanitizeText second))) :
    (parseMarcomWorkbook asciiPlatform plainOptions (twoEvents first second)).issues = [] := by
  have htable : ∀ t, (parseTable asciiPlatform plainOptions (twoEvents first second) t).issues = [] := by
    intro t
    refine parseTable_issues (fun r hr => ?_) ?_
    · by_cases h : t = .events ∧ (r = 34 ∨ r = 35)
      · obtain ⟨rfl, hrow⟩ := h
        have hname : jsTrim (if r = 34 then first else second) ≠ "" ∧
            sanitizeText (if r = 34 then first else second) ≠ "" := by
          split
          · exact hfirst
          · exact hsecond
        obtain ⟨hexcel, hissues, hkept⟩ := keptRow_event hrow rfl hname.1 hname.2
        refine ⟨hexcel, fun d hd => ?_⟩
        rw [hkept] at hd
        cases hd
        exact hissues
      · refine ⟨excelErrors_other h hr, fun d hd => ?_⟩
        rw [keptRow_other h hr] at hd
        cases hd
    · by_cases ht : t = .events
      · subst ht
        rw [keptRows_events hfirst hsecond]
        simpa using hne
      · rw [keptRows_other ht]
        exact List.nodup_nil
  have hmedia : (parseTable asciiPlatform plainOptions (twoEvents first second) .media).rows = [] := by
    rw [scanned_parseTable.rows, keptRows_other (by decide)]
  unfold parseMarcomWorkbook
  simp only [hmedia, campaignIssues, List.filterMap_nil, List.append_nil]
  rw [List.flatMap_eq_nil_iff]
  exact fun t _ => htable t

end TwoEvents

theorem isSpace_of_isUpper {c : Char} (h : c.isUpper = true) : isSpace c.toLower = isSpace c := by
  have hc : 65 ≤ c.toNat ∧ c.toNat ≤ 90 := by simpa [Char.isUpper, UInt32.le_iff_toNat_le] using h
  have hupper : isSpace c = false := by
    unfold isSpace
    simp
    omega
  have hlower : c.toLower.toNat = c.toNat + 32 := by
    rw [Char.toLower_eq_of_isUpper h, Char.toNat_ofNat, if_pos (.inl (by omega))]
  rw [hupper]
  unfold isSpace
  simp [hlower]
  omega

theorem isSpace_toLower (c : Char) : isSpace c.toLower = isSpace c := by
  by_cases h : c.isUpper = true
  · exact isSpace_of_isUpper h
  · rw [Char.toLower_eq_of_not_isUpper h]

theorem asciiPlatform_trim (s : String) :
    jsTrim (asciiPlatform.toLowerCase s) = asciiPlatform.toLowerCase (jsTrim s) := by
  have hspace : isSpace ∘ Char.toLower = isSpace := funext isSpace_toLower
  unfold jsTrim asciiPlatform asciiText jsText trimChars trimEnd
  simp only [String.toList_ofList]
  rw [List.dropWhile_map, hspace, List.rdropWhile, ← List.map_reverse, List.dropWhile_map, hspace,
    ← List.map_reverse, List.rdropWhile]

theorem cutAtBlank_typed {s : String} (hblank : jsTrim s ≠ "") (h : cutAtBlank s = false) :
    cutAtBlank (asciiPlatform.string (readCell (typed s)).value) = false := by
  have hvalue : (readCell (typed s)).value = .text s := by
    simp [readCell, typed, RawValue.orNull, hblank]
  rw [hvalue]
  exact h

theorem cutAtBlank_eventCell {name : String} (hblank : jsTrim name ≠ "") (h : cutAtBlank name = false)
    {c : Nat} : cutAtBlank (asciiPlatform.string (readCell (eventCell name c)).value) = false := by
  unfold eventCell
  split
  · exact cutAtBlank_typed hblank h
  · exact cutAtBlank_typed (by decide +kernel) (by decide +kernel)
  · exact cutAtBlank_typed (by decide +kernel) (by decide +kernel)
  · exact cutAtBlank_typed (by decide +kernel) (by decide +kernel)
  · exact cutAtBlank_typed (by decide +kernel) (by decide +kernel)
  · decide +kernel

/-- No key text of the two events is that long. -/
theorem accepted_onePerRecord_two :
    (parseMarcomWorkbook asciiPlatform plainOptions (twoEvents "Launch" "Fair")).issues = [] ∧
    ∀ t, OnePerRecord asciiText (adapter t)
      ((parseMarcomWorkbook asciiPlatform plainOptions (twoEvents "Launch" "Fair")).tables t).rows := by
  have hok : (parseMarcomWorkbook asciiPlatform plainOptions (twoEvents "Launch" "Fair")).issues = [] :=
    twoEvents_accepted (by decide +kernel) (by decide +kernel) (by decide +kernel)
  refine ⟨hok, accepted_onePerRecord asciiPlatform plainOptions _ asciiPlatform_trim hok ?_⟩
  rintro t r hr d hd ⟨c, hc, hkey, -, hcut⟩
  by_cases h : t = .events ∧ (r = 34 ∨ r = 35)
  · obtain ⟨rfl, hrow⟩ := h
    have hvalue : (twoEvents "Launch" "Fair").cell (tableSpec .events).sheet r c.col =
        eventCell (if r = 34 then "Launch" else "Fair") c.col := if_pos ⟨rfl, hrow⟩
    unfold rawCell at hcut
    rw [hvalue, cutAtBlank_eventCell (by split <;> decide +kernel) (by split <;> decide +kernel)] at hcut
    cases hcut
  · rw [keptRow_other h hr] at hd
    cases hd

/-! ## Two events under one key -/

def letters : List Char := List.replicate 199 'a'

/-- 199 letters. -/
def longName : String := String.ofList letters

/-- The same letters with a second word behind them, and what is left of it. -/
def longDay : String := String.ofList (letters ++ [' ', 'd', 'a', 'y'])

def cutDay : String := String.ofList (letters ++ [' '])

theorem longName_clean : sanitizeText longName = longName ∧ sanitizeText longDay = cutDay := by
  unfold sanitizeText cleanText longName longDay cutDay
  rw [String.toList_ofList, String.toList_ofList]
  constructor
  · exact congrArg String.ofList (by decide +kernel)
  · exact congrArg String.ofList (by decide +kernel)

theorem longName_trim : jsTrim longName = longName ∧ jsTrim cutDay = longName ∧
    jsTrim longDay = longDay := by
  unfold jsTrim longName longDay cutDay
  rw [String.toList_ofList, String.toList_ofList, String.toList_ofList]
  refine ⟨?_, ?_, ?_⟩ <;> exact congrArg String.ofList (by decide +kernel)

theorem longName_ne : longName ≠ "" ∧ cutDay ≠ "" ∧ longDay ≠ "" := by
  refine ⟨?_, ?_, ?_⟩ <;> decide +kernel

theorem longName_parserKey : parserKey asciiPlatform .events (readEvent longName) ≠
    parserKey asciiPlatform .events (readEvent cutDay) := by
  intro h
  have hlist := congrArg String.toList h
  simp only [parserKey, tableSpec, readEvent, Cell.toText, asciiPlatform, asciiText, jsText,
    String.toList_intercalate, List.map_cons, List.map_nil, longName, cutDay,
    String.toList_ofList, reduceCtorEq, if_false] at hlist
  exact absurd hlist (by decide +kernel)

theorem longName_keyOf : keyOf asciiText (adapter .events) (readEvent cutDay) =
    keyOf asciiText (adapter .events) (readEvent longName) := by
  rw [keyOf_eq_join, keyOf_eq_join, sameRecord_iff.mp]
  intro k hk
  have hkeys : k = .name ∨ k = .brand := by simpa [adapter] using hk
  rcases hkeys with rfl | rfl
  · have hname : ∀ s, s ≠ "" → keyText asciiText (adapter .events) (readEvent s) .name =
        asciiText.toLowerCase (jsTrim s) := by
      intro s hs
      have htype : (adapter .events).typeOf .name = .text := rfl
      have htrim : asciiText.trim = jsTrim := rfl
      simp [keyText, normalize, htype, htrim, readEvent, Cell.toText, hs]
    rw [hname cutDay longName_ne.2.1, hname longName longName_ne.1, longName_trim.1, longName_trim.2.1]
  · have hbrand : ∀ s, readEvent s .brand = .text "Xtreme" := fun _ => rfl
    unfold keyText
    rw [hbrand, hbrand]

/-- An event name of 199 letters and one that goes on behind them: the parser
accepts both, and both have one key. -/
theorem accepted_not_onePerRecord :
    (parseMarcomWorkbook asciiPlatform plainOptions (twoEvents longName longDay)).issues = [] ∧
    ¬ ∀ t, OnePerRecord asciiText (adapter t)
      ((parseMarcomWorkbook asciiPlatform plainOptions (twoEvents longName longDay)).tables t).rows := by
  have hname : jsTrim longName ≠ "" ∧ sanitizeText longName ≠ "" := by
    rw [longName_trim.1, longName_clean.1]
    exact ⟨longName_ne.1, longName_ne.1⟩
  have hday : jsTrim longDay ≠ "" ∧ sanitizeText longDay ≠ "" := by
    rw [longName_trim.2.2, longName_clean.2]
    exact ⟨longName_ne.2.2, longName_ne.2.1⟩
  have hkeys : parserKey asciiPlatform .events (readEvent (sanitizeText longName)) ≠
      parserKey asciiPlatform .events (readEvent (sanitizeText longDay)) := by
    rw [longName_clean.1, longName_clean.2]
    exact longName_parserKey
  have hok := twoEvents_accepted hname hday hkeys
  refine ⟨hok, fun h => ?_⟩
  have hrows : (parseTable asciiPlatform plainOptions (twoEvents longName longDay) .events).rows =
      [⟨34, readEvent longName⟩, ⟨35, readEvent cutDay⟩] := by
    rw [scanned_parseTable.rows, keptRows_events hname hday, longName_clean.1, longName_clean.2]
  have hnodup := (h .events).1
  have htables : (parseMarcomWorkbook asciiPlatform plainOptions (twoEvents longName longDay)).tables
      .events = parseTable asciiPlatform plainOptions (twoEvents longName longDay) .events := rfl
  rw [htables, hrows] at hnodup
  simp [longName_keyOf] at hnodup

end SalesDashboard.Marcom
