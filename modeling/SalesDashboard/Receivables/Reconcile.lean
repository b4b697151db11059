import SalesDashboard.Receivables.Figures

/-! The Receivables page reconciles: every endpoint of one snapshot has the figures of the
lines of its view. -/

namespace SalesDashboard.Receivables
open DataScope Grouping Keyed Loops

/-! ## Views -/

/-- Whether a currency is in the view: one currency, or with `none` all of them. -/
def inView (view : Option String) (currency : String) : Bool :=
  view.all fun c => decide (currency = c)

def viewLines (view : Option String) (lines : List ReceivableLine) : List ReceivableLine :=
  lines.filter fun l => inView view l.currency

theorem viewLines_none (lines : List ReceivableLine) : viewLines none lines = lines :=
  List.filter_eq_self.mpr fun _ _ => rfl

/-! ## Overview -/

/-- The figures that an overview shows, in the order of a customer's row. -/
def DebtKpis.amounts (k : DebtKpis) : Amounts :=
  ⟨k.openAmount, k.overdueAmount, k.notDueAmount, k.unappliedCredits,
    k.otherEntries + k.intercompany, k.netBalance⟩

/-- **The figures of an overview** are those of its lines. -/
theorem overview_amounts (company : Bool) (lines : List ReceivableLine) (currency : String)
    (buckets : List BucketRow) :
    (currencyOverview currency (accOf company lines) buckets).kpis.amounts = figures company lines := by
  have hkind := accOf_kind company lines
  have hinvoice := hkind .invoice
  have hcredit := hkind .credit_note
  have hpayment := hkind .payment
  have hother := hkind .other
  have hintercompany := hkind .intercompany
  simp only [CurrencyAcc.kind] at hinvoice hcredit hpayment hother hintercompany
  rw [figures_eq]
  simp only [DebtKpis.amounts, currencyOverview, hinvoice, hcredit, hpayment, hother,
    hintercompany, accOf_overdue, accOf_net]

/-- **The bars** of the buckets add up to the open amount. -/
theorem aging_sum (company : Bool) (lines : List ReceivableLine) (currency : String)
    {buckets : List BucketRow} (hn : (buckets.map (·.key)).Nodup)
    (hbuckets : ∀ l ∈ lines, isInvoice l = true → l.agingBucketKey ∈ buckets.map (·.key)) :
    ((currencyOverview currency (accOf company lines) buckets).aging.map (·.amount)).sum =
      kindSum company .invoice lines := by
  have hsum := sum_values (fun l : ReceivableLine => l.agingBucketKey) _ hn (lines.filter isInvoice)
    (amountOf company)
  have hall : (lines.filter isInvoice).filter
      (fun l => decide (l.agingBucketKey ∈ buckets.map (·.key))) = lines.filter isInvoice := by
    refine List.filter_eq_self.mpr fun l hl => decide_eq_true ?_
    exact hbuckets l (List.mem_filter.mp hl).1 (List.mem_filter.mp hl).2
  rw [hall, List.map_map] at hsum
  unfold currencyOverview
  dsimp only
  rw [List.map_map]
  refine Eq.trans (congrArg List.sum (List.map_congr_left fun b _ => ?_)) hsum
  simp only [Function.comp_apply, bucketOf_eq]
  rfl

theorem accByCurrency_get (lines : List ReceivableLine) (currency : String) :
    (((accByCurrency lines).find? fun c => decide (c.1 = currency)).map Prod.snd).getD
        (newCurrencyAcc false) = accOf false (viewLines (some currency) lines) := by
  have hfold := find?_upserts (g := addLine) (z := newCurrencyAcc false)
    (k := fun l : ReceivableLine => l.currency) lines currency
  exact hfold

theorem mem_orderCurrencies (db : Database) {counts : List (String × Nat)} {c : String} :
    c ∈ orderCurrencies db counts ↔ c ∈ counts.map Prod.fst := by
  unfold orderCurrencies
  rw [List.mem_map, List.mem_map]
  simp only [List.mem_insertionSort]

theorem nodup_orderCurrencies (db : Database) {counts : List (String × Nat)}
    (hn : (counts.map Prod.fst).Nodup) : (orderCurrencies db counts).Nodup :=
  ((List.perm_insertionSort _ counts).map Prod.fst).nodup_iff.mpr hn

/-- The overviews of an answer, with their views. -/
def DebtOverview.views (o : DebtOverview) : List (Option String × DebtCurrencyOverview) :=
  o.currencies.map (fun c => (some c.currency, c)) ++ [(none, o.all)]

theorem mem_views {db : Database} {k : Option Nat} {lines : List ReceivableLine}
    {v : Option String × DebtCurrencyOverview} (hv : v ∈ (overviewOf db k lines).views) :
    v.2 = currencyOverview (v.1.getD COMPANY_CURRENCY) (accOf v.1.isNone (viewLines v.1 lines))
        db.agingBuckets ∧
      ∀ c, v.1 = some c → c ∈ lines.map (·.currency) := by
  unfold DebtOverview.views overviewOf at hv
  dsimp only at hv
  rcases List.mem_append.mp hv with hv | hv
  · obtain ⟨o, ho, rfl⟩ := List.mem_map.mp hv
    obtain ⟨c, hc, rfl⟩ := List.mem_map.mp ho
    dsimp only
    rw [accByCurrency_get]
    refine ⟨rfl, fun c' hc' => ?_⟩
    have hcurrency : c = c' := Option.some.inj hc'
    rw [mem_orderCurrencies, List.map_map] at hc
    rw [← hcurrency]
    exact (mem_keys_upserts (by exact fun _ _ => rfl) (by exact fun _ => rfl)).mp hc
  · rw [List.mem_singleton.mp hv]
    refine ⟨?_, fun c hc => by cases hc⟩
    rw [viewLines_none]
    rfl

/-! ## Customers -/

/-- The amounts of a row in the view. -/
def rowAmounts (view : Option String) (r : DebtCustomerRow) : Amounts :=
  if view.isNone then r.lyd else r.amounts

def CustomerAcc.inViewAmounts (view : Option String) (g : CustomerAcc) : Amounts :=
  if view.isNone then g.lyd else g.amounts

theorem customerAccs_key {lines : List ReceivableLine} : ∀ g ∈ customerAccs lines,
    g.1 = (g.2.companyKey, g.2.customerKey, g.2.currency) :=
  forall_upserts (fun g : (Int × Int × String) × CustomerAcc =>
    g.1 = (g.2.companyKey, g.2.customerKey, g.2.currency)) (fun _ _ h => h) (fun _ => rfl)
    fun _ h => by cases h

theorem customerAcc_add (view : Option String) (g : CustomerAcc) (l : ReceivableLine) :
    (g.add l).inViewAmounts view = g.inViewAmounts view + contribution view.isNone l := by
  unfold CustomerAcc.inViewAmounts
  cases view with
  | none => exact Amounts.add_eq true l g.lyd
  | some c => exact Amounts.add_eq false l g.amounts

/-- **A figure of some rows** of the table is the sum over the lines with their keys. -/
theorem sum_customerRows {M : Type} [AddCommMonoid M] (db : Database) (k : Nat)
    (lines : List ReceivableLine) (p : Int × Int × String → Bool) {w : DebtCustomerRow → M}
    {v : CustomerAcc → M} {d : ReceivableLine → M} (hw : ∀ g, w (g.row db) = v g)
    (hadd : ∀ g l, v (g.add l) = v g + d l) (hnew : ∀ l, v (newCustomerAcc l) = 0) :
    (((customersOf db k lines).rows.filter fun r =>
        p (r.companyKey, r.customerKey, r.currency)).map w).sum =
      ((lines.filter fun l => p (l.companyKey, l.customerKey, l.currency)).map d).sum := by
  have hrows : (((customersOf db k lines).rows.filter fun r =>
      p (r.companyKey, r.customerKey, r.currency)).map w).sum =
      ((customerAccs lines).map fun g => if p g.1 then v g.2 else 0).sum := by
    unfold customersOf
    dsimp only
    refine ((((List.perm_insertionSort _ _).map _).filter _).map w).sum_eq.trans ?_
    rw [← sum_map_ite, List.map_map, List.map_map]
    refine congrArg List.sum (List.map_congr_left fun g hg => ?_)
    rw [customerAccs_key g hg]
    simp only [Function.comp_apply, hw]
    rfl
  rw [hrows]
  unfold customerAccs
  rw [sum_upserts_nil (d := fun l : ReceivableLine =>
    if p (l.companyKey, l.customerKey, l.currency) then d l else 0) (by exact fun _ _ => rfl)
    (by exact fun _ => rfl)]
  · exact sum_map_ite _ _ _
  · intro l g hg
    dsimp only
    rw [hg, hadd]
    split
    · rfl
    · rw [add_zero]
  · intro l
    dsimp only
    rw [hadd, hnew, zero_add]

theorem customers_amounts (db : Database) (k : Nat) (lines : List ReceivableLine)
    (view : Option String) :
    (((customersOf db k lines).rows.filter fun r => inView view r.currency).map
      (rowAmounts view)).sum = figures view.isNone (viewLines view lines) := by
  refine sum_customerRows db k lines (fun key => inView view key.2.2)
    (v := CustomerAcc.inViewAmounts view) (fun _ => rfl) (fun g l => customerAcc_add view g l) fun l => ?_
  cases view <;> rfl

/-! ## Drill-downs -/

theorem drilldown_totals (db : Database) (k : Nat) (d : DebtDrill) (lines : List ReceivableLine) :
    (drilldownOf db k d lines).totals.lines =
        ((viewLines d.currency lines).filter (drillCondition d.key)).length ∧
      (drilldownOf db k d lines).totals.openBalance =
        (((viewLines d.currency lines).filter (drillCondition d.key)).map
          (amountOf d.currency.isNone)).sum ∧
      (drilldownOf db k d lines).totals.overdueAmount =
        (((viewLines d.currency lines).filter (drillCondition d.key)).map
          (overdueAmountOf d.currency.isNone)).sum := by
  have hlines : lines.filter (fun l => (d.currency.all fun c => decide (l.currency = c)) &&
      drillCondition d.key l) = (viewLines d.currency lines).filter (drillCondition d.key) := by
    unfold viewLines
    rw [List.filter_filter]
    exact List.filter_congr fun l _ => Bool.and_comm ..
  unfold drilldownOf
  dsimp only
  rw [hlines]
  generalize (viewLines d.currency lines).filter (drillCondition d.key) = ls
  have hperm := List.perm_insertionSort drillLe ls
  refine ⟨?_, ?_, ?_⟩
  · rw [List.length_map, hperm.length_eq]
  · rw [List.map_map]
    refine ((hperm.map _).sum_eq).trans (congrArg List.sum (List.map_congr_left fun l _ => ?_))
    cases d.currency <;> rfl
  · rw [List.map_map]
    refine ((hperm.map _).sum_eq).trans (congrArg List.sum (List.map_congr_left fun l _ => ?_))
    cases d.currency <;> rfl

section
variable {company : Bool} {lines : List ReceivableLine} {buckets : List BucketRow} {currency : String}

/-- The overdue lines of a key come to the point of the key, balance and overdue part. -/
theorem overdue_point {κ : Type} [DecidableEq κ] {key : ReceivableLine → κ}
    {label : ReceivableLine → String} {detail : ReceivableLine → Option String} {total : ℚ}
    {limit : Option Nat} {withDetail : Bool} {p : DebtGroupPoint κ}
    (hp : p ∈ points total (groupsBy company lines key label detail) limit withDetail) :
    ((lines.filter fun l => decide (key l = p.key) && decide (0 < l.daysPastDue) &&
        decide (lineKind l = .invoice)).map (amountOf company)).sum = p.overdue ∧
      ((lines.filter fun l => decide (key l = p.key) && decide (0 < l.daysPastDue) &&
        decide (lineKind l = .invoice)).map (overdueAmountOf company)).sum = p.overdue := by
  rw [point_overdue company lines hp]
  exact ⟨sum_overdue_lines company lines key p.key _ fun l h => (if_pos h).symm,
    sum_overdue_lines company lines key p.key _ fun _ _ => rfl⟩

theorem aging_point {p : DebtAgingPoint}
    (hp : p ∈ (currencyOverview currency (accOf company lines) buckets).aging) :
    ((lines.filter (drillCondition (.aging p.agingBucketKey))).map (amountOf company)).sum = p.amount ∧
      (lines.filter (drillCondition (.aging p.agingBucketKey))).length = p.lineCount := by
  obtain ⟨b, -, rfl⟩ := List.mem_map.mp hp
  have hlines : lines.filter (drillCondition (.aging b.key)) =
      (lines.filter isInvoice).filter fun l => decide (l.agingBucketKey = b.key) := by
    rw [List.filter_filter]
    rfl
  rw [bucketOf_eq, hlines]
  exact ⟨rfl, rfl⟩

end

/-- The lines of a company and customer in one currency come to their row. -/
theorem account_row {db : Database} {k : Nat} {lines : List ReceivableLine} {r : DebtCustomerRow}
    (hr : r ∈ (customersOf db k lines).rows) :
    (((viewLines (some r.currency) lines).filter
        (drillCondition (.account r.companyKey r.customerKey))).map (amountOf false)).sum =
        r.amounts.net ∧
      ((viewLines (some r.currency) lines).filter
        (drillCondition (.account r.companyKey r.customerKey))).length = r.lineCount := by
  unfold customersOf at hr
  obtain ⟨acc, hacc, rfl⟩ := List.mem_map.mp hr
  rw [List.mem_insertionSort] at hacc
  obtain ⟨g, hg, rfl⟩ := List.mem_map.mp hacc
  have hkey := customerAccs_key g hg
  have hlines : (viewLines (some (g.2.row db).currency) lines).filter
      (drillCondition (.account (g.2.row db).companyKey (g.2.row db).customerKey)) =
      lines.filter fun l => decide ((l.companyKey, l.customerKey, l.currency) = g.1) := by
    unfold viewLines
    rw [List.filter_filter, hkey]
    refine List.filter_congr fun l _ => ?_
    show ((decide (l.companyKey = g.2.companyKey) && decide (l.customerKey = g.2.customerKey)) &&
      decide (l.currency = g.2.currency)) = _
    rw [Bool.eq_iff_iff]
    simp [and_assoc]
  have hnet := figure_upserts (w := fun g : (Int × Int × String) × CustomerAcc => g.2.amounts.net)
    (d := amountOf false) (by exact fun _ _ => rfl) (by exact fun _ => rfl)
    (fun l g _ => ?_) (fun l => ?_) hg
  · have hcount := figure_upserts
      (w := fun g : (Int × Int × String) × CustomerAcc => g.2.lineCount) (d := fun _ => 1)
      (by exact fun _ _ => rfl) (by exact fun _ => rfl) (by exact fun _ _ _ => rfl)
      (by exact fun _ => rfl) hg
    rw [List.map_const', List.sum_replicate, nsmul_one, Nat.cast_id] at hcount
    rw [hlines]
    exact ⟨hnet.symm, hcount.symm⟩
  · show (g.2.amounts.add false l).net = _
    rw [Amounts.add_eq, contribution_eq]
    rfl
  · show ((newCustomerAcc l).amounts.add false l).net = _
    rw [Amounts.add_eq, contribution_eq]
    exact zero_add _

/-- The lines of a company and customer in all currencies come to their rows. -/
theorem account_rows (db : Database) (k : Nat) (lines : List ReceivableLine)
    (co cu : Int) :
    ((lines.filter (drillCondition (.account co cu))).map (amountOf true)).sum =
        (((customersOf db k lines).rows.filter fun r =>
          decide (r.companyKey = co) && decide (r.customerKey = cu)).map (·.lyd.net)).sum ∧
      (lines.filter (drillCondition (.account co cu))).length =
        (((customersOf db k lines).rows.filter fun r =>
          decide (r.companyKey = co) && decide (r.customerKey = cu)).map (·.lineCount)).sum := by
  constructor
  · refine (sum_customerRows db k lines (fun key => decide (key.1 = co) && decide (key.2.1 = cu))
      (v := fun g => g.lyd.net) (fun _ => rfl) (fun g l => ?_) fun _ => rfl).symm
    show (g.lyd.add true l).net = _
    rw [Amounts.add_eq, contribution_eq]
    rfl
  · have hcount := sum_customerRows db k lines (fun key => decide (key.1 = co) && decide (key.2.1 = cu))
      (w := fun r => r.lineCount) (v := fun g => g.lineCount) (d := fun _ => 1) (fun _ => rfl)
      (fun _ _ => rfl) fun _ => rfl
    rw [hcount, List.map_const', List.sum_replicate, nsmul_one, Nat.cast_id]
    rfl

/-! ## Trend -/

/-- The points of a view. -/
def DebtTrend.of (trend : DebtTrend) : Option String → List DebtTrendPoint
  | some c => trend.points.filter fun p => decide (p.currency = c)
  | none => trend.all

theorem sumCase_open (company : Bool) (lines : List ReceivableLine) :
    sumCase isInvoice (amountOf company) lines = kindSum company .invoice lines :=
  sum_map_ite _ _ _

theorem sumCase_overdue (company : Bool) (lines : List ReceivableLine) :
    sumCase isOverdueInvoice (amountOf company) lines = overdueSum company lines := by
  unfold sumCase overdueSum
  rw [← sum_map_ite]
  refine congrArg List.sum (List.map_congr_left fun l _ => ?_)
  unfold isOverdueInvoice overdueAmountOf
  by_cases hinvoice : isInvoice l = true
  · simp [hinvoice]
  · simp [hinvoice]

/-- The lines of a snapshot among those of all. -/
def onSnapshot (k : Nat) (lines : List ReceivableLine) : List ReceivableLine :=
  lines.filter fun l => decide (l.snapshotDateKey = k)

theorem mem_trendGroups_keys {lines : List ReceivableLine} {k : Nat} :
    k ∈ (trendGroups lines).map (·.k) ↔ k ∈ lines.map (·.snapshotDateKey) := by
  unfold trendGroups
  rw [List.map_map]
  constructor
  · intro h
    obtain ⟨g, hg, rfl⟩ := List.mem_map.mp h
    obtain ⟨key, hkey, rfl⟩ := List.mem_map.mp hg
    obtain ⟨l, hl, rfl⟩ := List.mem_map.mp (Firsts.mem_firsts.mp hkey)
    exact List.mem_map_of_mem hl
  · intro h
    obtain ⟨l, hl, rfl⟩ := List.mem_map.mp h
    exact List.mem_map.mpr ⟨((l.snapshotDateKey, l.currency), _), List.mem_map.mpr
      ⟨_, Firsts.mem_firsts.mpr (List.mem_map_of_mem hl), rfl⟩, rfl⟩

theorem mem_trendGroups_currencies {lines : List ReceivableLine} {c : String} :
    c ∈ (trendGroups lines).map (·.currency) ↔ c ∈ lines.map (·.currency) := by
  unfold trendGroups
  rw [List.map_map]
  constructor
  · intro h
    obtain ⟨g, hg, rfl⟩ := List.mem_map.mp h
    obtain ⟨key, hkey, rfl⟩ := List.mem_map.mp hg
    obtain ⟨l, hl, rfl⟩ := List.mem_map.mp (Firsts.mem_firsts.mp hkey)
    exact List.mem_map_of_mem hl
  · intro h
    obtain ⟨l, hl, rfl⟩ := List.mem_map.mp h
    exact List.mem_map.mpr ⟨((l.snapshotDateKey, l.currency), _), List.mem_map.mpr
      ⟨_, Firsts.mem_firsts.mpr (List.mem_map_of_mem hl), rfl⟩, rfl⟩

/-- The group of a snapshot and currency has the figures of its lines. -/
theorem find?_trendGroups {lines : List ReceivableLine} {k : Nat} {c : String}
    (h : c ∈ (onSnapshot k lines).map (·.currency)) :
    ∃ x, (trendGroups lines).find? (fun x => decide (x.k = k ∧ x.currency = c)) = some x ∧
      x.openAmount = kindSum false .invoice (viewLines (some c) (onSnapshot k lines)) ∧
      x.overdue = overdueSum false (viewLines (some c) (onSnapshot k lines)) ∧
      x.net = ((viewLines (some c) (onSnapshot k lines)).map (amountOf false)).sum := by
  have hrows : Grouping.rowsOf (fun l : ReceivableLine => (l.snapshotDateKey, l.currency)) lines (k, c) =
      viewLines (some c) (onSnapshot k lines) := by
    unfold Grouping.rowsOf viewLines onSnapshot
    rw [List.filter_filter]
    refine List.filter_congr fun l _ => ?_
    rw [Bool.eq_iff_iff]
    simp [inView, and_comm]
  have hkey : (k, c) ∈ lines.map fun l => (l.snapshotDateKey, l.currency) := by
    obtain ⟨l, hl, rfl⟩ := List.mem_map.mp h
    obtain ⟨hmem, hk⟩ := List.mem_filter.mp hl
    exact List.mem_map.mpr ⟨l, hmem, by rw [of_decide_eq_true hk]⟩
  have hfind := find?_groups (c := fun l : ReceivableLine => (l.snapshotDateKey, l.currency)) hkey
  have hpred : (fun g : (Nat × String) × List ReceivableLine => decide (g.1 = (k, c))) =
      fun g => decide (g.1.1 = k ∧ g.1.2 = c) := by
    funext g
    exact decide_eq_decide.mpr Prod.ext_iff
  rw [hpred] at hfind
  unfold trendGroups
  rw [List.find?_map]
  refine ⟨_, congrArg (Option.map _) hfind, ?_⟩
  dsimp only
  rw [hrows]
  exact ⟨sumCase_open false _, sumCase_overdue false _, rfl⟩

/-- A total over the groups of a snapshot is one over its lines. -/
theorem sum_trendGroups {lines : List ReceivableLine} (k : Nat) (w : TrendGroup → ℚ)
    (d : ReceivableLine → ℚ)
    (hw : ∀ g ∈ groups (fun l : ReceivableLine => (l.snapshotDateKey, l.currency)) lines,
      w ⟨g.1.1, g.1.2, g.2.length, sumCase isInvoice residualDoc g.2,
        sumCase isOverdueInvoice residualDoc g.2, (g.2.map residualDoc).sum,
        sumCase isInvoice (·.residualCompanyCcy) g.2, sumCase isOverdueInvoice (·.residualCompanyCcy) g.2,
        (g.2.map (·.residualCompanyCcy)).sum⟩ = (g.2.map d).sum) :
    (((trendGroups lines).filter fun x => decide (x.k = k)).map w).sum =
      ((onSnapshot k lines).map d).sum := by
  unfold trendGroups onSnapshot
  rw [← sum_map_ite, ← sum_map_ite, List.map_map,
    ← sum_groups_rows (fun l : ReceivableLine => (l.snapshotDateKey, l.currency)) lines]
  refine congrArg List.sum (List.map_congr_left fun g hg => ?_)
  obtain ⟨key, -, rfl⟩ := List.mem_map.mp hg
  simp only [Function.comp_apply]
  rw [hw _ hg]
  have hkeys : ∀ l ∈ Grouping.rowsOf (fun l : ReceivableLine => (l.snapshotDateKey, l.currency)) lines key,
      l.snapshotDateKey = key.1 := by
    intro l hl
    rw [← of_decide_eq_true (List.mem_filter.mp hl).2]
  by_cases hk : key.1 = k
  · rw [decide_eq_true hk, if_pos rfl]
    refine congrArg List.sum (List.map_congr_left fun l hl => ?_)
    rw [hkeys l hl, decide_eq_true hk, if_pos rfl]
  · rw [decide_eq_false hk, if_neg Bool.false_ne_true]
    refine (List.sum_eq_zero fun x hx => ?_).symm
    obtain ⟨l, hl, rfl⟩ := List.mem_map.mp hx
    rw [hkeys l hl, decide_eq_false hk, if_neg Bool.false_ne_true]

/-- The dates of the snapshots. -/
def snapshotDates (db : Database) : List Nat :=
  (Firsts.firsts (db.lines.map (·.snapshotDateKey))).insertionSort (· ≤ ·)

theorem nodup_snapshotDates (db : Database) : (snapshotDates db).Nodup :=
  (List.perm_insertionSort _ _).nodup_iff.mpr (Firsts.nodup_firsts _)

theorem mem_snapshotDates {db : Database} {q : DebtQuery} {k : Nat}
    (hk : resolveSnapshot db q = .ok (some k)) : k ∈ snapshotDates db := by
  unfold snapshotDates
  rw [List.mem_insertionSort, Firsts.mem_firsts]
  unfold resolveSnapshot at hk
  split at hk
  · split at hk
    · next h =>
      injection hk with hk
      injection hk with hk
      exact hk ▸ h
    · cases hk
  · injection hk with hk
    rw [Option.filter_eq_some_iff] at hk
    exact List.max?_mem hk.1

section
variable {db : Database} {q : DebtQuery} {filters : Filters} {k : Nat}

/-- **The point of a currency** has the figures of its lines on the snapshot. -/
theorem trend_currency (hk : k ∈ snapshotDates db) {c : String}
    (hc : c ∈ (linesSource db (.on k) q filters).map (·.currency)) :
    (((fetchDebtTrend db q filters).of (some c)).filter fun p => decide (p.snapshotDate = k)) =
      let f := figures false (viewLines (some c) (linesSource db (.on k) q filters))
      [⟨k, c, some f.open_, some f.overdue, some f.notDue, some f.net⟩] := by
  have hon : onSnapshot k (linesSource db (.since 0) q filters) = linesSource db (.on k) q filters :=
    linesSource_on db q filters (Nat.zero_le k)
  have hcurrencies : c ∈ (linesSource db (.since 0) q filters).map (·.currency) := by
    rw [← hon] at hc
    obtain ⟨l, hl, rfl⟩ := List.mem_map.mp hc
    exact List.mem_map_of_mem (List.mem_of_mem_filter hl)
  have hdate : k ∈ (trendGroups (linesSource db (.since 0) q filters)).map (·.k) := by
    rw [← hon] at hc
    obtain ⟨l, hl, -⟩ := List.mem_map.mp hc
    rw [mem_trendGroups_keys]
    obtain ⟨hmem, hl⟩ := List.mem_filter.mp hl
    exact of_decide_eq_true hl ▸ List.mem_map_of_mem hmem
  rw [← hon] at hc
  obtain ⟨x, hx, hopen, hoverdue, hnet⟩ := find?_trendGroups hc
  rw [hon] at hopen hoverdue hnet
  unfold fetchDebtTrend DebtTrend.of fetchSnapshots
  dsimp only
  set r := trendGroups (linesSource db (.since 0) q filters)
  rw [List.filter_filter, List.filter_flatMap, flatMap_single (k := c)]
  · rw [List.map_map]
    refine (filter_map_single (nodup_snapshotDates db) hk _ fun y _ => ?_).trans ?_
    · simp only [Function.comp_apply]
      split <;> simp
    · simp only [Function.comp_apply]
      rw [if_pos hdate, hx, figures_eq]
      simp only [Option.map_some, Option.getD_some, hopen, hoverdue, hnet]
  · refine nodup_orderCurrencies db (nodup_upserts (by exact fun _ _ => rfl) (by exact fun _ => rfl) ?_)
    exact List.nodup_nil
  · rw [mem_orderCurrencies, mem_keys_upserts (by exact fun _ _ => rfl) (by exact fun _ => rfl)]
    exact mem_trendGroups_currencies.mpr hcurrencies
  · intro y _ hy
    rw [List.filter_eq_nil_iff]
    intro p hp
    obtain ⟨sn, -, rfl⟩ := List.mem_map.mp hp
    split <;> simp [hy]

/-- **The point of all currencies**, of a snapshot that has a line. -/
theorem trend_all (hk : k ∈ snapshotDates db) (hne : linesSource db (.on k) q filters ≠ []) :
    (((fetchDebtTrend db q filters).of none).filter fun p => decide (p.snapshotDate = k)) =
      let f := figures true (linesSource db (.on k) q filters)
      [⟨k, COMPANY_CURRENCY, some f.open_, some f.overdue, some f.notDue, some f.net⟩] := by
  have hon : onSnapshot k (linesSource db (.since 0) q filters) = linesSource db (.on k) q filters :=
    linesSource_on db q filters (Nat.zero_le k)
  have hdate : k ∈ (trendGroups (linesSource db (.since 0) q filters)).map (·.k) := by
    rw [mem_trendGroups_keys]
    obtain ⟨l, hl⟩ := List.exists_mem_of_ne_nil _ hne
    rw [← hon] at hl
    obtain ⟨hmem, hl⟩ := List.mem_filter.mp hl
    exact of_decide_eq_true hl ▸ List.mem_map_of_mem hmem
  unfold fetchDebtTrend DebtTrend.of fetchSnapshots
  dsimp only
  set r := trendGroups (linesSource db (.since 0) q filters) with hr
  set allBySnapshot : List (Nat × AllTotals) := upserts Prod.fst (·.k) (fun x t => (t.1, t.2.add x))
    (fun x => (x.k, (AllTotals.mk 0 0 0).add x)) [] r with hall
  have hn : (allBySnapshot.map Prod.fst).Nodup :=
    nodup_upserts (by exact fun _ _ => rfl) (by exact fun _ => rfl) (by exact List.nodup_nil)
  obtain ⟨t, ht, htk⟩ : ∃ t ∈ allBySnapshot, t.1 = k :=
    List.mem_map.mp ((mem_keys_upserts (by exact fun _ _ => rfl) (by exact fun _ => rfl)).mpr hdate)
  have hfind : allBySnapshot.find? (fun t => decide (t.1 = k)) = some t :=
    (find?_eq_some_iff hn).mpr ⟨ht, htk⟩
  have hopen : t.2.open_ = _ := figure_upserts (w := fun t : Nat × AllTotals => t.2.open_)
    (d := fun x : TrendGroup => x.openCompany) (by exact fun _ _ => rfl) (by exact fun _ => rfl)
    (by exact fun _ _ _ => rfl) (by exact fun _ => zero_add _) ht
  have hoverdue : t.2.overdue = _ := figure_upserts (w := fun t : Nat × AllTotals => t.2.overdue)
    (d := fun x : TrendGroup => x.overdueCompany) (by exact fun _ _ => rfl) (by exact fun _ => rfl)
    (by exact fun _ _ _ => rfl) (by exact fun _ => zero_add _) ht
  have hnet : t.2.net = _ := figure_upserts (w := fun t : Nat × AllTotals => t.2.net)
    (d := fun x : TrendGroup => x.netCompany) (by exact fun _ _ => rfl) (by exact fun _ => rfl)
    (by exact fun _ _ _ => rfl) (by exact fun _ => zero_add _) ht
  rw [htk, hr] at hopen hoverdue hnet
  rw [sum_trendGroups k _ (fun l => if isInvoice l then l.residualCompanyCcy else 0)
    fun _ _ => rfl, hon] at hopen
  rw [sum_trendGroups k _ (fun l => if isOverdueInvoice l then l.residualCompanyCcy else 0)
    fun _ _ => rfl, hon] at hoverdue
  rw [sum_trendGroups k _ (fun l => l.residualCompanyCcy) fun _ _ => rfl, hon] at hnet
  have hopen : t.2.open_ = kindSum true .invoice (linesSource db (.on k) q filters) :=
    hopen.trans (sumCase_open true _)
  have hoverdue : t.2.overdue = overdueSum true (linesSource db (.on k) q filters) :=
    hoverdue.trans (sumCase_overdue true _)
  rw [List.map_map]
  refine (filter_map_single (nodup_snapshotDates db) hk _ fun y _ => ?_).trans ?_
  · simp only [Function.comp_apply]
    refine decide_eq_decide.mpr ?_
    split <;> exact Iff.rfl
  · simp only [Function.comp_apply]
    rw [hfind, figures_eq]
    simp only [Option.map_some, hopen, hoverdue, hnet]
    rfl

end

/-! ## The page -/

/-- The drill-down is answered, with totals such as these. -/
def DrillsTo (db : Database) (q : DebtQuery) (filters : Filters) (d : DebtDrill)
    (P : DrillTotals → Prop) : Prop :=
  ∃ answer, fetchDebtDrilldown db q filters d = .ok answer ∧ P answer.totals

/-- **A view of the page reconciles**: its own figures, the customer table, the trend and the
drill-downs. A point or a row is what its drill-down is reconciled to: the overdue amount of
a bar, the amount of a bucket, the net balance of a row. -/
structure ViewReconciles (db : Database) (q : DebtQuery) (filters : Filters) (k : Nat)
    (customers : DebtCustomers) (view : Option String) (o : DebtCurrencyOverview) : Prop where
  openSplit : o.kpis.openAmount = o.kpis.overdueAmount + o.kpis.notDueAmount
  netSplit : o.kpis.netBalance = o.kpis.openAmount + o.kpis.unappliedCredits +
    o.kpis.otherEntries + o.kpis.intercompany
  bars : (o.aging.map (·.amount)).sum = o.kpis.openAmount
  table : ((customers.rows.filter fun r => inView view r.currency).map (rowAmounts view)).sum =
    o.kpis.amounts
  trend : linesSource db (.on k) q filters ≠ [] →
    (((fetchDebtTrend db q filters).of view).filter fun p => decide (p.snapshotDate = k)) =
      [⟨k, view.getD COMPANY_CURRENCY, some o.kpis.openAmount, some o.kpis.overdueAmount,
        some o.kpis.notDueAmount, some o.kpis.netBalance⟩]
  customer : ∀ p ∈ o.topCustomers, DrillsTo db q filters ⟨.customer p.key, view⟩ fun t =>
    t.openBalance = p.overdue ∧ t.overdueAmount = p.overdue
  salesperson : ∀ p ∈ o.bySalesperson, DrillsTo db q filters ⟨.salesperson p.key, view⟩ fun t =>
    t.openBalance = p.overdue ∧ t.overdueAmount = p.overdue
  team : ∀ p ∈ o.byTeam, DrillsTo db q filters ⟨.team p.key, view⟩ fun t =>
    t.openBalance = p.overdue ∧ t.overdueAmount = p.overdue
  aging : ∀ p ∈ o.aging, DrillsTo db q filters ⟨.aging p.agingBucketKey, view⟩ fun t =>
    t.openBalance = p.amount ∧ t.lines = p.lineCount
  account : ∀ c, view = some c → ∀ r ∈ customers.rows, r.currency = c →
    DrillsTo db q filters ⟨.account r.companyKey r.customerKey, view⟩ fun t =>
      t.openBalance = r.amounts.net ∧ t.lines = r.lineCount
  accounts : view = none → ∀ co cu, DrillsTo db q filters ⟨.account co cu, view⟩ fun t =>
    t.openBalance = ((customers.rows.filter fun r =>
        decide (r.companyKey = co) && decide (r.customerKey = cu)).map (·.lyd.net)).sum ∧
      t.lines = ((customers.rows.filter fun r =>
        decide (r.companyKey = co) && decide (r.customerKey = cu)).map (·.lineCount)).sum

section
variable {db : Database} {q : DebtQuery} {filters : Filters} {k : Nat}

theorem fetchDebtOverview_eq (hk : resolveSnapshot db q = .ok (some k)) :
    fetchDebtOverview db q filters = .ok (overviewOf db (some k) (linesSource db (.on k) q filters)) := by
  unfold fetchDebtOverview
  rw [hk]
  rfl

theorem fetchDebtCustomers_eq (hk : resolveSnapshot db q = .ok (some k)) :
    fetchDebtCustomers db q filters = .ok (customersOf db k (linesSource db (.on k) q filters)) := by
  unfold fetchDebtCustomers
  rw [hk]
  rfl

/-- What a drill-down comes to, from the lines of its view. -/
theorem drillsTo (hk : resolveSnapshot db q = .ok (some k)) (key : DrillKey) (view : Option String)
    (hkey : drillQuery q key = q) {P : DrillTotals → Prop}
    (hP : ∀ t : DrillTotals,
      t.lines = ((viewLines view (linesSource db (.on k) q filters)).filter (drillCondition key)).length →
      t.openBalance = (((viewLines view (linesSource db (.on k) q filters)).filter
        (drillCondition key)).map (amountOf view.isNone)).sum →
      t.overdueAmount = (((viewLines view (linesSource db (.on k) q filters)).filter
        (drillCondition key)).map (overdueAmountOf view.isNone)).sum → P t) :
    DrillsTo db q filters ⟨key, view⟩ P := by
  obtain ⟨hlines, hbalance, hoverdue⟩ :=
    drilldown_totals db k ⟨key, view⟩ (linesSource db (.on k) q filters)
  refine ⟨_, ?_, hP _ hlines hbalance hoverdue⟩
  unfold fetchDebtDrilldown
  rw [hk, hkey]
  rfl

theorem view_reconciles (hk : resolveSnapshot db q = .ok (some k))
    (hbuckets : ∀ l ∈ linesSource db (.on k) q filters, isInvoice l = true →
      l.agingBucketKey ∈ db.agingBuckets.map (·.key))
    {v : Option String × DebtCurrencyOverview}
    (hv : v ∈ (overviewOf db (some k) (linesSource db (.on k) q filters)).views) :
    ViewReconciles db q filters k (customersOf db k (linesSource db (.on k) q filters)) v.1 v.2 := by
  obtain ⟨view, o⟩ := v
  obtain ⟨ho, hview⟩ := mem_views hv
  dsimp only at ho hview ⊢
  subst ho
  set lines := linesSource db (.on k) q filters with hlines
  have hamounts := overview_amounts view.isNone (viewLines view lines)
    (view.getD COMPANY_CURRENCY) db.agingBuckets
  have hcols := hamounts
  rw [figures_eq] at hcols
  simp only [DebtKpis.amounts, Amounts.mk.injEq] at hcols
  obtain ⟨hopen, hoverdue, hnotDue, hcredits, hother, hnet⟩ := hcols
  refine ⟨?_, ?_, ?_, ?_, ?_, ?_, ?_, ?_, ?_, ?_, ?_⟩
  · rw [hopen, hoverdue, hnotDue]
    ring
  · rw [add_assoc _ (DebtKpis.otherEntries _), hnet, hopen, hcredits, hother]
    exact net_eq _ _
  · rw [hopen]
    refine aging_sum _ _ _ db.agingBuckets_nodup fun l hl => hbuckets l ?_
    exact List.mem_of_mem_filter hl
  · rw [hamounts]
    exact customers_amounts db k lines view
  · intro hne
    rw [hopen, hoverdue, hnotDue, hnet]
    have hdate := mem_snapshotDates hk
    cases view with
    | some c =>
      refine (trend_currency hdate (hview c rfl)).trans ?_
      rw [figures_eq]
      rfl
    | none =>
      refine (trend_all hdate hne).trans ?_
      rw [figures_eq, viewLines_none]
      rfl
  · intro p hp
    have hp' : p ∈ points _ (accOf view.isNone (viewLines view lines)).byCustomer _ _ := hp
    rw [accOf_byCustomer] at hp'
    obtain ⟨hbalance, hod⟩ := overdue_point hp'
    exact drillsTo hk _ view rfl fun t _ hb ho => ⟨hb.trans hbalance, ho.trans hod⟩
  · intro p hp
    have hp' : p ∈ points _ (accOf view.isNone (viewLines view lines)).bySalesperson _ _ := hp
    rw [accOf_bySalesperson] at hp'
    obtain ⟨hbalance, hod⟩ := overdue_point hp'
    exact drillsTo hk _ view rfl fun t _ hb ho => ⟨hb.trans hbalance, ho.trans hod⟩
  · intro p hp
    have hp' : p ∈ points _ (accOf view.isNone (viewLines view lines)).byTeam _ _ := hp
    rw [accOf_byTeam] at hp'
    obtain ⟨hbalance, hod⟩ := overdue_point hp'
    exact drillsTo hk _ view rfl fun t _ hb ho => ⟨hb.trans hbalance, ho.trans hod⟩
  · intro p hp
    obtain ⟨hamount, hcount⟩ := aging_point hp
    exact drillsTo hk _ view rfl fun t hn hb _ => ⟨hb.trans hamount, hn.trans hcount⟩
  · rintro c rfl r hr rfl
    obtain ⟨hbalance, hcount⟩ := account_row hr
    exact drillsTo hk _ _ rfl fun t hn hb _ => ⟨hb.trans hbalance, hn.trans hcount⟩
  · rintro rfl co cu
    obtain ⟨hbalance, hcount⟩ := account_rows db k lines co cu
    refine drillsTo hk _ _ rfl fun t hn hb _ => ⟨?_, ?_⟩
    · rw [hb, viewLines_none]
      exact hbalance
    · rw [hn, viewLines_none]
      exact hcount

/-- **The page reconciles**, for every currency with a line and for all of them together. -/
theorem receivables_reconcile (hk : resolveSnapshot db q = .ok (some k))
    (hbuckets : ∀ l ∈ linesSource db (.on k) q filters, isInvoice l = true →
      l.agingBucketKey ∈ db.agingBuckets.map (·.key)) :
    ∃ overview customers, fetchDebtOverview db q filters = .ok overview ∧
      fetchDebtCustomers db q filters = .ok customers ∧
      (∀ l ∈ linesSource db (.on k) q filters, l.currency ∈ overview.currencies.map (·.currency)) ∧
      ∀ v ∈ overview.views, ViewReconciles db q filters k customers v.1 v.2 := by
  refine ⟨_, _, fetchDebtOverview_eq hk, fetchDebtCustomers_eq hk, fun l hl => ?_,
    fun v hv => view_reconciles hk hbuckets hv⟩
  unfold overviewOf
  dsimp only
  rw [List.map_map]
  refine List.mem_map.mpr ⟨l.currency, ?_, rfl⟩
  rw [mem_orderCurrencies, List.map_map]
  exact (mem_keys_upserts (by exact fun _ _ => rfl) (by exact fun _ => rfl)).mpr
    (List.mem_map_of_mem hl)

end

/-! ### A snapshot of one customer -/

/-- A line in LYD of one customer, of a document of its own. -/
def sampleLine (lineId daysPastDue : Int) (amount : ℚ) (moveType : String) (isIntercompany : Bool) :
    ReceivableLine :=
  { snapshotDateKey := 20261004
    lineId := lineId
    moveId := lineId
    document := none
    invoiceDate := none
    dueDate := "2026-10-01"
    companyKey := 1
    company := "Majaal"
    customerKey := 10
    customer := "A"
    customerCategory := none
    salespersonKey := 5
    salesperson := "S1"
    channelKey := none
    salesTeamKey := "T1"
    salesTeam := "T1"
    segmentKey := none
    segment := none
    paymentTermKey := 1
    agingBucketKey := 5
    daysPastDue := daysPastDue
    currency := "LYD"
    residualDocCcy := some amount
    residualCompanyCcy := amount
    amountTotal := some amount
    amountTotalSigned := some amount
    deliveryStatus := none
    isIntercompany := isIntercompany
    receivableScopeIsDefault := true
    paymentKey := -1
    paymentType := none
    partnerType := none
    moveType := some moveType }

def sampleDb (lines : List ReceivableLine) : Database where
  lines := lines
  excludedTeams := []
  agingBuckets := [⟨5, "1-15 days", true⟩]
  agingBuckets_nodup := by decide
  tierLargeMin := 100000
  tierMediumMin := 10000
  localeLe := fun a b => decide (a ≤ b)
  odooWebBaseUrl := "https://example.odoo.com"

/-- An overdue invoice of 600, an overdue credit note of 50 and an inter-company line of 100. -/
def mixedLines : List ReceivableLine :=
  [sampleLine 1 3 600 "out_invoice" false, sampleLine 2 3 (-50) "out_refund" false,
    sampleLine 3 3 100 "out_invoice" true]

/-- All lines of the snapshot; then only those of a customer that has none. -/
def allLinesQuery : DebtQuery := { DEFAULT_DEBT_QUERY with includeIntercompany := true }

def otherCustomer : Filters
  | .customerKeys => [.num 11]
  | .scope _ => []

theorem receivables_reconcile_mixed :
    ∃ overview customers,
      fetchDebtOverview (sampleDb mixedLines) allLinesQuery (fun _ => []) = .ok overview ∧
      fetchDebtCustomers (sampleDb mixedLines) allLinesQuery (fun _ => []) = .ok customers ∧
      (∀ l ∈ linesSource (sampleDb mixedLines) (.on 20261004) allLinesQuery (fun _ => []),
        l.currency ∈ overview.currencies.map (·.currency)) ∧
      ∀ v ∈ overview.views, ViewReconciles (sampleDb mixedLines) allLinesQuery (fun _ => [])
        20261004 customers v.1 v.2 :=
  receivables_reconcile (k := 20261004) rfl (by decide +kernel)

/-- The table counts the inter-company line under other entries, where the overview has it
apart; the drill-down of the account counts the credit note and the inter-company line as
overdue, which its row does not; and without a line the trend has no point where the
overview has zeros. -/
theorem receivables_differ :
    (∃ overview customers drilldown,
      fetchDebtOverview (sampleDb mixedLines) allLinesQuery (fun _ => []) = .ok overview ∧
      fetchDebtCustomers (sampleDb mixedLines) allLinesQuery (fun _ => []) = .ok customers ∧
      fetchDebtDrilldown (sampleDb mixedLines) allLinesQuery (fun _ => [])
        ⟨.account 1 10, some "LYD"⟩ = .ok drilldown ∧
      overview.currencies.map (·.kpis.otherEntries) = [0] ∧
      customers.rows.map (·.amounts.otherEntries) = [100] ∧
      customers.rows.map (·.amounts.overdue) = [600] ∧
      drilldown.totals.overdueAmount = 650) ∧
    ∃ overview,
      fetchDebtOverview (sampleDb mixedLines) allLinesQuery otherCustomer = .ok overview ∧
      overview.all.kpis.openAmount = 0 ∧
      (fetchDebtTrend (sampleDb mixedLines) allLinesQuery otherCustomer).all =
        [⟨20261004, "LYD", none, none, none, none⟩] := by
  refine ⟨⟨_, _, _, rfl, rfl, rfl, ?_, ?_, ?_, ?_⟩, ⟨_, rfl, ?_, ?_⟩⟩
  all_goals decide +kernel

end SalesDashboard.Receivables
