import SalesDashboard.NpsRatings.Linked
import SalesDashboard.NpsRatings.Masked

/-! What a build of the NPS rows guarantees. -/

namespace SalesDashboard.NpsRatings
open Conformed Python Firsts

variable {lib : Stdlib} {m : KeyMaps} {lookups : Lookups} {zone : Zone} {full : List RawRow} {low : List LowRow}

/-! ## Kinds -/

theorem bodyKind_rating {body : Option String} : bodyKind lib body = .rating ↔ (classify body).isSome = true := by
  unfold bodyKind
  split
  · rename_i h
    exact iff_of_true rfl h
  · rename_i h
    refine iff_of_false ?_ h
    split <;> decide

/-- The rows of the three kinds are the rows. -/
theorem kinds_perm (rows : List RawRow) :
    (rows.filter (fun r => bodyKind lib r.body = .rating) ++ rows.filter (fun r => bodyKind lib r.body = .comment) ++
      rows.filter fun r => bodyKind lib r.body = .blank).Perm rows := by
  have hfirst := List.filter_append_perm (fun r : RawRow => decide (bodyKind lib r.body = .rating)) rows
  have hsecond := List.filter_append_perm (fun r : RawRow => decide (bodyKind lib r.body = .comment))
    (rows.filter fun r => ! decide (bodyKind lib r.body = .rating))
  have hcomment : (rows.filter fun r => ! decide (bodyKind lib r.body = .rating)).filter
      (fun r => decide (bodyKind lib r.body = .comment)) = rows.filter fun r => decide (bodyKind lib r.body = .comment) := by
    rw [List.filter_filter]
    refine List.filter_congr fun r _ => ?_
    cases bodyKind lib r.body <;> rfl
  have hblank : (rows.filter fun r => ! decide (bodyKind lib r.body = .rating)).filter
      (fun r => ! decide (bodyKind lib r.body = .comment)) = rows.filter fun r => decide (bodyKind lib r.body = .blank) := by
    rw [List.filter_filter]
    refine List.filter_congr fun r _ => ?_
    cases bodyKind lib r.body <;> rfl
  rw [hcomment, hblank] at hsecond
  rw [List.append_assoc]
  exact (hsecond.append_left _).trans hfirst

def sortedRows (full : List RawRow) : List RawRow := full.insertionSort fun a b => a.id ≤ b.id

theorem mem_sortedRows {r : RawRow} : r ∈ sortedRows full ↔ r ∈ full :=
  (List.perm_insertionSort (fun a b : RawRow => a.id ≤ b.id) full).mem_iff

/-! ## Rows of a build -/

/-- The responses before their comments are known. -/
def ratedRows (m : KeyMaps) (lookups : Lookups) (zone : Zone) (full : List RawRow) (low : List LowRow) : List Response :=
  (sortedRows full).filterMap fun r => (classify r.body).map (r.response m lookups zone low)

def commentRows (lib : Stdlib) (m : KeyMaps) (lookups : Lookups) (zone : Zone) (full : List RawRow) : List Comment :=
  ((sortedRows full).filter fun r => bodyKind lib r.body = .comment).map (RawRow.comment lib m lookups zone)

theorem build_comments : (build lib m lookups zone full low).comments =
    (commentRows lib m lookups zone full).map (Comment.linked (ratedRows m lookups zone full low)) := rfl

theorem build_responses : (build lib m lookups zone full low).responses =
    (ratedRows m lookups zone full low).map (Response.withComments (build lib m lookups zone full low).comments) := rfl

theorem mem_ratedRows {r : Response} (h : r ∈ ratedRows m lookups zone full low) :
    ∃ row ∈ full, ∃ level, classify row.body = some level ∧ r = row.response m lookups zone low level := by
  obtain ⟨row, hrow, hr⟩ := List.mem_filterMap.mp h
  obtain ⟨level, hlevel, rfl⟩ := Option.map_eq_some_iff.mp hr
  exact ⟨row, mem_sortedRows.mp hrow, level, hlevel, rfl⟩

theorem mem_responses {r : Response} (h : r ∈ (build lib m lookups zone full low).responses) :
    ∃ r₀ ∈ ratedRows m lookups zone full low, r = r₀.withComments (build lib m lookups zone full low).comments := by
  rw [build_responses] at h
  obtain ⟨r₀, hr₀, rfl⟩ := List.mem_map.mp h
  exact ⟨r₀, hr₀, rfl⟩

theorem mem_comments {c : Comment} (h : c ∈ (build lib m lookups zone full low).comments) :
    ∃ row ∈ full, bodyKind lib row.body = .comment ∧
      c = (row.comment lib m lookups zone).linked (ratedRows m lookups zone full low) := by
  rw [build_comments] at h
  obtain ⟨c₀, hc₀, rfl⟩ := List.mem_map.mp h
  obtain ⟨row, hrow, rfl⟩ := List.mem_map.mp hc₀
  obtain ⟨hmem, hkind⟩ := List.mem_filter.mp hrow
  exact ⟨row, mem_sortedRows.mp hmem, of_decide_eq_true hkind, rfl⟩

theorem ids_ratedRows : (ratedRows m lookups zone full low).map (·.responseId) =
    ((sortedRows full).filter fun r => bodyKind lib r.body = .rating).map (·.id) := by
  unfold ratedRows
  induction sortedRows full with
  | nil => rfl
  | cons r rows ih =>
    cases hlevel : classify r.body with
    | none =>
      have hkind : bodyKind lib r.body ≠ .rating := fun h => by
        rw [bodyKind_rating, hlevel] at h
        cases h
      rw [List.filterMap_cons_none (by rw [hlevel]; rfl), List.filter_cons_of_neg (by simpa using hkind)]
      exact ih
    | some level =>
      have hkind : bodyKind lib r.body = .rating := bodyKind_rating.mpr (by rw [hlevel]; rfl)
      rw [List.filterMap_cons_some (b := r.response m lookups zone low level) (by rw [hlevel]; rfl),
        List.filter_cons_of_pos (by simpa using hkind), List.map_cons, List.map_cons, ih]
      rfl

theorem ids_responses : (build lib m lookups zone full low).responses.map (·.responseId) =
    ((sortedRows full).filter fun r => bodyKind lib r.body = .rating).map (·.id) := by
  rw [build_responses, List.map_map, ← @ids_ratedRows lib m lookups zone full low]
  rfl

theorem ids_comments : (build lib m lookups zone full low).comments.map (·.commentId) =
    ((sortedRows full).filter fun r => bodyKind lib r.body = .comment).map (·.id) := by
  rw [build_comments]
  unfold commentRows
  rw [List.map_map, List.map_map]
  rfl

theorem coded_ratedRows : Coded (ratedRows m lookups zone full low) := by
  intro r hr hcode
  obtain ⟨row, _, level, _, rfl⟩ := mem_ratedRows hr
  have hnone : orNone row.code = some "" := hcode
  unfold orNone at hnone
  split at hnone
  · cases hnone
  · rename_i hne
    exact hne (Option.some.inj hnone)

/-- The flag of a comment is all that linking changes in a response. -/
theorem linkRule_withComments {responses : List Response} {comments : List Comment} {c : Comment}
    (h : LinkRule responses c) : LinkRule (responses.map (Response.withComments comments)) c := by
  have hcarries : ∀ {r : Response} {code : String} {t : Int}, Carries (r.withComments comments) code t ↔ Carries r code t :=
    Iff.rfl
  constructor
  · rintro at' code hat hcode ⟨r', hr', t, hc⟩
    obtain ⟨r, hr, rfl⟩ := List.mem_map.mp hr'
    obtain ⟨r₁, hr₁, t₁, hc₁, hid, hrule⟩ := h.linked at' code hat hcode ⟨r, hr, t, hcarries.mp hc⟩
    refine ⟨r₁.withComments comments, List.mem_map_of_mem hr₁, t₁, hc₁, hid, ?_⟩
    rcases hrule with ⟨hle, hmax⟩ | hafter
    · refine .inl ⟨hle, fun r' hr' t' hc' => ?_⟩
      obtain ⟨r₂, hr₂, rfl⟩ := List.mem_map.mp hr'
      exact hmax r₂ hr₂ t' hc'
    · refine .inr fun r' hr' t' hc' => ?_
      obtain ⟨r₂, hr₂, rfl⟩ := List.mem_map.mp hr'
      exact hafter r₂ hr₂ t' hc'
  · intro hno
    refine h.other ?_
    rintro ⟨at', code, hat, hcode, r, hr, t, hc⟩
    exact hno ⟨at', code, hat, hcode, r.withComments comments, List.mem_map_of_mem hr, t, hc⟩

/-! ## A build -/

/-- What a build of rows guarantees. -/
structure Guarantee (lib : Stdlib) (m : KeyMaps) (lookups : Lookups) (full : List RawRow) (b : Built) : Prop where
  /-- Each row is a response, a comment or blank. -/
  partition : (b.responses.map (·.responseId) ++ b.comments.map (·.commentId) ++
    (full.filter fun r => bodyKind lib r.body = .blank).map (·.id)).Perm (full.map (·.id))
  counts : b.stats.ratings = b.responses.length ∧ b.stats.comments = b.comments.length ∧
    b.stats.sourceRows = full.length ∧ b.stats.ratings + b.stats.comments + b.stats.blank = b.stats.sourceRows
  links : ∀ c ∈ b.comments, LinkRule b.responses c
  hasComment : ∀ r ∈ b.responses, r.hasComment = true ↔
    ∃ c ∈ b.comments, c.responseId ≠ UNKNOWN ∧ c.responseId = r.responseId
  responses : ∀ r ∈ b.responses, ∃ row ∈ full, row.id = r.responseId ∧ bodyKind lib row.body = .rating ∧
    CompanyRule m lookups row r.companyKey r.companySource ∧ DocumentRule m lookups row r.salesOrderKey r.pickingId
  comments : ∀ c ∈ b.comments, ∃ row ∈ full, row.id = c.commentId ∧ bodyKind lib row.body = .comment ∧
    ∃ source, CompanyRule m lookups row c.companyKey source

theorem build_guarantee (lib : Stdlib) (m : KeyMaps) (lookups : Lookups) (zone : Zone) (full : List RawRow)
    (low : List LowRow) : Guarantee lib m lookups full (build lib m lookups zone full low) := by
  have hsorted : (sortedRows full).Perm full := List.perm_insertionSort _ full
  have hparts := (@kinds_perm lib (sortedRows full)).map (·.id)
  rw [List.map_append, List.map_append, ← @ids_comments lib m lookups zone full low,
    ← @ids_responses lib m lookups zone full low] at hparts
  constructor
  · refine List.Perm.trans (List.Perm.append_left _ ?_) (hparts.trans (hsorted.map _))
    exact (hsorted.symm.filter _).map _
  · have hlength := hparts.length_eq
    simp only [List.length_append, List.length_map] at hlength
    refine ⟨rfl, rfl, hsorted.length_eq, ?_⟩
    show _ + _ + (sortedRows full).countP (fun r => decide (bodyKind lib r.body = .blank)) = (sortedRows full).length
    rw [List.countP_eq_length_filter]
    exact hlength
  · intro c hc
    obtain ⟨row, _, _, rfl⟩ := mem_comments hc
    rw [build_responses]
    exact linkRule_withComments (linked_rule coded_ratedRows _)
  · intro r hr
    obtain ⟨r₀, _, rfl⟩ := mem_responses hr
    show ((build lib m lookups zone full low).comments.any fun c =>
      decide (c.responseId ≠ UNKNOWN ∧ c.responseId = r₀.responseId)) = true ↔ _
    rw [List.any_eq_true]
    exact exists_congr fun c => and_congr_right fun _ => decide_eq_true_iff
  · intro r hr
    obtain ⟨r₀, hr₀, rfl⟩ := mem_responses hr
    obtain ⟨row, hrow, level, hlevel, rfl⟩ := mem_ratedRows hr₀
    exact ⟨row, hrow, rfl, bodyKind_rating.mpr (by rw [hlevel]; rfl), company_rule m lookups row, document_rule m lookups row⟩
  · intro c hc
    obtain ⟨row, hrow, hkind, rfl⟩ := mem_comments hc
    exact ⟨row, hrow, rfl, hkind, _, company_rule m lookups row⟩

/-! ## No difference from orders -/

theorem find?_perm {α : Type*} {xs ys : List α} {p : α → Bool} (h : xs.Perm ys)
    (hone : ∀ a ∈ xs, ∀ b ∈ xs, p a = true → p b = true → a = b) : xs.find? p = ys.find? p := by
  cases hx : xs.find? p with
  | none =>
    have hno := List.find?_eq_none.mp hx
    exact (List.find?_eq_none.mpr fun a ha => hno a (h.mem_iff.mpr ha)).symm
  | some a =>
    have ha := List.mem_of_find?_eq_some hx
    have hpa := List.find?_some hx
    cases hy : ys.find? p with
    | none => exact absurd hpa (List.find?_eq_none.mp hy a (h.mem_iff.mp ha))
    | some b =>
      exact congrArg some (hone a ha b (h.mem_iff.mpr (List.mem_of_find?_eq_some hy)) hpa (List.find?_some hy))

theorem lowBranch_perm {low low' : List LowRow} (h : low.Perm low') (hids : (low.map (·.id)).Nodup) :
    lowBranch low = lowBranch low' := by
  funext id
  unfold lowBranch
  refine find?_perm ((List.reverse_perm low).trans (h.trans (List.reverse_perm low').symm)) ?_
  intro a ha b hb hpa hpb
  have hida : a.id = id := of_decide_eq_true hpa
  have hidb : b.id = id := of_decide_eq_true hpb
  exact List.inj_on_of_nodup_map hids (List.mem_reverse.mp ha) (List.mem_reverse.mp hb) (hida.trans hidb.symm)

/-- The same candidates for each name, in any order and however often. -/
def Lookups.Same (l l' : Lookups) : Prop :=
  (∀ name c, c ∈ l.orders name ↔ c ∈ l'.orders name) ∧ ∀ name c, c ∈ l.deliveries name ↔ c ∈ l'.deliveries name

theorem order_same {l l' : Lookups} (h : l.Same l') (r : RawRow) : r.order m l = r.order m l' := by
  unfold RawRow.order
  rw [pick_congr (h.1 r.orderRef)]

theorem delivery_same {l l' : Lookups} (h : l.Same l') (r : RawRow) : r.delivery m l = r.delivery m l' := by
  unfold RawRow.delivery
  rw [pickDelivery_congr (h.2 r.code)]

theorem company_same {l l' : Lookups} (h : l.Same l') (r : RawRow) : r.company m l = r.company m l' := by
  unfold RawRow.company
  rw [order_same h, delivery_same h]

theorem response_same {l l' : Lookups} (h : l.Same l') {low low' : List LowRow} (hlow : low.Perm low')
    (hids : (low.map (·.id)).Nodup) (r : RawRow) (level : Nat) :
    r.response m l zone low level = r.response m l' zone low' level := by
  unfold RawRow.response RawRow.keys
  rw [order_same h, delivery_same h, company_same h, lowBranch_perm hlow hids]

theorem comment_same {l l' : Lookups} (h : l.Same l') (r : RawRow) :
    r.comment lib m l zone = r.comment lib m l' zone := by
  unfold RawRow.comment RawRow.keys
  rw [company_same h]

theorem build_same {full full' : List RawRow} (hfull : full.Perm full') (hids : (full.map (·.id)).Nodup)
    {low low' : List LowRow} (hlow : low.Perm low') (hlowids : (low.map (·.id)).Nodup) {l l' : Lookups} (hl : l.Same l') :
    (build lib m l zone full low).responses = (build lib m l' zone full' low').responses ∧
      (build lib m l zone full low).comments = (build lib m l' zone full' low').comments := by
  have hrows : sortedRows full = sortedRows full' := sortedRows_perm hfull hids
  have hrated : ratedRows m l zone full low = ratedRows m l' zone full' low' := by
    unfold ratedRows
    rw [hrows]
    refine congrArg (fun f => List.filterMap f _) (funext fun r => ?_)
    exact congrArg (fun f => Option.map f _) (funext fun level => response_same hl hlow hlowids r level)
  have hcommented : commentRows lib m l zone full = commentRows lib m l' zone full' := by
    unfold commentRows
    rw [hrows]
    exact congrArg (fun f => List.map f _) (funext fun r => comment_same hl r)
  have hcomments : (build lib m l zone full low).comments = (build lib m l' zone full' low').comments := by
    rw [build_comments, build_comments, hrated, hcommented]
  exact ⟨by rw [build_responses, build_responses, hrated, hcomments], hcomments⟩

/-- **A build of the NPS rows.** It puts each row in one place, links each comment to its
delivery's rating, and is the same for every order of rows and candidates. -/
theorem nps_build (lib : Stdlib) (m : KeyMaps) (lookups : Lookups) (zone : Zone) (full : List RawRow)
    (hids : (full.map (·.id)).Nodup) (low : List LowRow) :
    Guarantee lib m lookups full (build lib m lookups zone full low) ∧
      ∀ (full' : List RawRow) (low' : List LowRow) (lookups' : Lookups), full.Perm full' → low.Perm low' →
        (low.map (·.id)).Nodup → lookups.Same lookups' →
        (build lib m lookups zone full low).responses = (build lib m lookups' zone full' low').responses ∧
          (build lib m lookups zone full low).comments = (build lib m lookups' zone full' low').comments :=
  ⟨build_guarantee lib m lookups zone full low, fun _ _ _ hfull hlow hlowids hl => build_same hfull hids hlow hlowids hl⟩

def ratingRow (id : Int) (body : String) : RawRow :=
  ⟨id, some "MAJAAL", none, some "WH/OUT/1", .number 7, .missing, .missing, some (1000 * id), none, some body⟩

/-- Maps of one company. -/
def oneCompany : KeyMaps :=
  ⟨fun _ => none, fun _ => none, fun _ => none, fun _ => none, fun _ => none, fun _ => none, fun k => k = 1, fun _ => false⟩

def onePicking : Lookups := ⟨fun _ => [], fun name => if name = "WH/OUT/1" then [⟨5, 1, -1⟩] else []⟩

/-- Two ratings of a delivery and a comment. -/
theorem nps_build_three :
    Guarantee asciiLib oneCompany onePicking
      [ratingRow 3 "thanks", ratingRow 1 "في مستوى التوقعات", ratingRow 2 "أقل من المتوقع"]
      (build asciiLib oneCompany onePicking (fun t => ⟨2026, 10, 18, t.toNat⟩)
        [ratingRow 3 "thanks", ratingRow 1 "في مستوى التوقعات", ratingRow 2 "أقل من المتوقع"] []) :=
  (nps_build asciiLib oneCompany onePicking (fun t => ⟨2026, 10, 18, t.toNat⟩)
    [ratingRow 3 "thanks", ratingRow 1 "في مستوى التوقعات", ratingRow 2 "أقل من المتوقع"] (by decide) []).1

end SalesDashboard.NpsRatings
