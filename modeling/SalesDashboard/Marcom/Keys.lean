import SalesDashboard.Lib.Joined
import SalesDashboard.Marcom.Text

/-! What the natural key of a row says about its key fields. The fields are
joined with a bar, and a text may hold bars of its own. -/

namespace SalesDashboard.Marcom

/-! ## The texts of a key -/

/-- A key field as it enters the key: normalised, in lower case, a missing value
as an empty text. -/
def keyText (js : JsText) (a : Adapter) (data : Data) (k : Field) : String :=
  js.toLowerCase ((normalize js (a.typeOf k) (data k)).getD "")

def keyTexts (js : JsText) (a : Adapter) (data : Data) : List String :=
  a.keyFields.map (keyText js a data)

/-- Two rows agree on every key field. -/
def SameRecord (js : JsText) (a : Adapter) (r1 r2 : Data) : Prop :=
  ∀ k ∈ a.keyFields, keyText js a r1 k = keyText js a r2 k

theorem keyOf_eq_join (js : JsText) (a : Adapter) (data : Data) :
    keyOf js a data = "|".intercalate (keyTexts js a data) := rfl

theorem sameRecord_iff {js : JsText} {a : Adapter} {r1 r2 : Data} :
    SameRecord js a r1 r2 ↔ keyTexts js a r1 = keyTexts js a r2 := by
  unfold SameRecord keyTexts
  exact List.map_inj_left.symm

/-! ## Bars inside the texts -/

/-- The number of bars in a text. -/
def bars (s : String) : Nat := s.toList.count '|'

/-- The stretches of a row's key texts that hold no bar, in order. -/
def keyPieces (js : JsText) (a : Adapter) (data : Data) : List (List Char) :=
  Joined.pieces '|' ((keyTexts js a data).map String.toList)

/-- The bars of the two rows stand in the same key fields, or the stretches
between bars tell the rows apart. -/
def BarsAgree (js : JsText) (a : Adapter) (r1 r2 : Data) : Prop :=
  (∀ k ∈ a.keyFields, bars (keyText js a r1 k) = bars (keyText js a r2 k)) ∨
    keyPieces js a r1 ≠ keyPieces js a r2

theorem keyTexts_ne_nil (js : JsText) (t : TableId) (data : Data) :
    (keyTexts js (adapter t) data).map String.toList ≠ [] := by
  cases t <;> simp [keyTexts, adapter]

theorem toList_keyOf (js : JsText) (a : Adapter) (data : Data) :
    (keyOf js a data).toList = ['|'].intercalate ((keyTexts js a data).map String.toList) := by
  rw [keyOf_eq_join, String.toList_intercalate]
  rfl

/-- A key without a bar in its texts identifies the record. -/
theorem keyOf_eq_of_no_bars {js : JsText} {t : TableId} {r1 r2 : Data}
    (h1 : ∀ k ∈ (adapter t).keyFields, bars (keyText js (adapter t) r1 k) = 0)
    (h2 : ∀ k ∈ (adapter t).keyFields, bars (keyText js (adapter t) r2 k) = 0) :
    BarsAgree js (adapter t) r1 r2 :=
  Or.inl fun k hk => by rw [h1 k hk, h2 k hk]

/-! ## Identity and matching -/

/-- Two rows have one key exactly when they agree on the key fields, and the
comparison with the current rows never matches one with the other otherwise. -/
def Identified (js : JsText) (a : Adapter) (r1 r2 : Data) : Prop :=
  (keyOf js a r1 = keyOf js a r2 ↔ SameRecord js a r1 r2) ∧
    ∀ (current : List CurrentRow) (c : CurrentRow), c.data = r1 →
      byKey js a current (keyOf js a r2) = some c → SameRecord js a r1 r2

/-- **A key identifies its record exactly when the bars agree.** -/
theorem identified_iff (js : JsText) (t : TableId) (r1 r2 : Data) :
    Identified js (adapter t) r1 r2 ↔ BarsAgree js (adapter t) r1 r2 := by
  have hkey : (keyOf js (adapter t) r1 = keyOf js (adapter t) r2 ↔
      SameRecord js (adapter t) r1 r2) ↔ BarsAgree js (adapter t) r1 r2 := by
    have hjoin := Joined.joined_iff '|' (keyTexts_ne_nil js t r1) (keyTexts_ne_nil js t r2)
    rw [← toList_keyOf, ← toList_keyOf, String.toList_inj] at hjoin
    have hsame : (keyTexts js (adapter t) r1).map String.toList =
        (keyTexts js (adapter t) r2).map String.toList ↔ SameRecord js (adapter t) r1 r2 := by
      rw [sameRecord_iff]
      exact (List.map_injective_iff.mpr fun _ _ h => String.toList_inj.mp h).eq_iff
    have hbars : ((keyTexts js (adapter t) r1).map String.toList).map (·.count '|') =
        ((keyTexts js (adapter t) r2).map String.toList).map (·.count '|') ↔
          ∀ k ∈ (adapter t).keyFields,
            bars (keyText js (adapter t) r1 k) = bars (keyText js (adapter t) r2 k) := by
      unfold keyTexts
      rw [List.map_map, List.map_map, List.map_map, List.map_map]
      exact List.map_inj_left
    rw [hsame, hbars] at hjoin
    exact hjoin
  constructor
  · intro h
    exact hkey.mp h.1
  · intro h
    refine ⟨hkey.mpr h, ?_⟩
    intro current c hc hfound
    have hcur := (byKey_some hfound).2
    rw [hc] at hcur
    exact (hkey.mpr h).mp hcur

/-! ## Two events that share a key -/

/-- An event of a brand; the other fields play no part in the key. -/
def eventRow (name brand : String) : Data := fun f =>
  match f with
  | .name => .text name
  | .brand => .text brand
  | _ => .null

/-- Lower-casing of ASCII letters. -/
def asciiText : JsText := jsText fun s => String.ofList (s.toList.map Char.toLower)

/-- Texts that the parser leaves as they are: the event "Launch" of the brand
"Xtreme|Pro" and the event "Launch|Xtreme" of the brand "Pro" have one key. -/
theorem keyOf_collides :
    (∀ s ∈ ["Launch", "Xtreme|Pro", "Launch|Xtreme", "Pro"], sanitizeText s = s) ∧
      ¬ Identified asciiText (adapter .events) (eventRow "Launch" "Xtreme|Pro")
        (eventRow "Launch|Xtreme" "Pro") := by
  refine ⟨by decide +kernel, fun h => ?_⟩
  have hkeys : keyOf asciiText (adapter .events) (eventRow "Launch" "Xtreme|Pro") =
      keyOf asciiText (adapter .events) (eventRow "Launch|Xtreme" "Pro") := by decide +kernel
  have hname := h.1.mp hkeys .name (by decide)
  exact absurd hname (by decide +kernel)

end SalesDashboard.Marcom
