import SalesDashboard.Marcom.ZipGuard
import Mathlib

/-! The checks on a workbook end on every buffer, in an acceptance or in a validation error.
What is accepted has a directory of sound headers. The variable part of the last record is
the one thing that is not held against the end of the buffer. -/

namespace SalesDashboard.Marcom.ZipGuard

/-! ## The directory of a buffer -/

def compressedAt (buf : Buffer) (p : Nat) : Nat := uint32At buf (p + 20)

def uncompressedAt (buf : Buffer) (p : Nat) : Nat := uint32At buf (p + 24)

/-- A header with its name, extra field and comment. -/
def recordLength (buf : Buffer) (p : Nat) : Nat :=
  46 + uint16At buf (p + 28) + uint16At buf (p + 30) + uint16At buf (p + 32)

def nameAt (decode : Buffer → List Char) (buf : Buffer) (p : Nat) : List Char :=
  toText decode buf (p + 46) (p + 46 + uint16At buf (p + 28))

/-- Where `n` records in a row begin, the first at `p`. -/
def records (buf : Buffer) : Nat → Nat → List Nat
  | 0, _ => []
  | n + 1, p => p :: records buf n (p + recordLength buf p)

/-- Where the last of them ends. -/
def recordsEnd (buf : Buffer) : Nat → Nat → Nat
  | 0, p => p
  | n + 1, p => recordsEnd buf n (p + recordLength buf p)

/-- A header of the directory, up to its name. -/
structure HeaderAt (buf : Buffer) (p : Nat) : Prop where
  inside : p + 46 ≤ buf.length
  signature : uint32At buf p = 0x02014b50
  size : uncompressedAt buf p ≠ 0xffffffff

/-- The last end record in the tail that is scanned. -/
structure LastEndRecord (buf : Buffer) (eocd : Nat) : Prop where
  inside : eocd + 22 ≤ buf.length
  scanned : buf.length ≤ eocd + 22 + 65535
  signature : uint32At buf eocd = 0x06054b50
  last : ∀ i, eocd < i → i + 22 ≤ buf.length → uint32At buf i ≠ 0x06054b50

theorem LastEndRecord.unique {buf : Buffer} {e e' : Nat} (h : LastEndRecord buf e) (h' : LastEndRecord buf e') :
    e = e' := by
  rcases Nat.lt_trichotomy e e' with hlt | heq | hlt
  · exact absurd h'.signature (h.last e' hlt h'.inside)
  · exact heq
  · exact absurd h.signature (h'.last e hlt h.inside)

def entryCount (buf : Buffer) (eocd : Nat) : Nat := uint16At buf (eocd + 10)

def cdOffset (buf : Buffer) (eocd : Nat) : Nat := uint32At buf (eocd + 16)

/-- The headers that the end record announces. -/
def headers (buf : Buffer) (eocd : Nat) : List Nat := records buf (entryCount buf eocd) (cdOffset buf eocd)

def sumUncompressed (buf : Buffer) (ps : List Nat) : Nat := (ps.map (uncompressedAt buf)).sum

def sumCompressed (buf : Buffer) (ps : List Nat) : Nat := (ps.map (compressedAt buf)).sum

structure SafeName (name : List Char) : Prop where
  noDots : ¬ ['.', '.'] <:+: name
  noMacros : endsWith vbaProject name = false
  noLinks : startsWith externalLinks name = false

structure SafeDirectory (decode : Buffer → List Char) (buf : Buffer) (eocd : Nat) : Prop where
  endRecord : LastEndRecord buf eocd
  entries : entryCount buf eocd ≤ MAX_ENTRIES
  header : ∀ p ∈ headers buf eocd, HeaderAt buf p
  total : sumUncompressed buf (headers buf eocd) ≤ MAX_UNCOMPRESSED_TOTAL
  ratio : ¬ (0 < sumCompressed buf (headers buf eocd) ∧
    MAX_RATIO * sumCompressed buf (headers buf eocd) < sumUncompressed buf (headers buf eocd) ∧
    5 * 1024 * 1024 < sumUncompressed buf (headers buf eocd))
  names : ∀ p ∈ headers buf eocd, SafeName (nameAt decode buf p)

/-- Every record lies inside the buffer, its name, extra field and comment included. -/
def WholeRecords (buf : Buffer) (eocd : Nat) : Prop :=
  ∀ p ∈ headers buf eocd, p + recordLength buf p ≤ buf.length

/-- The last record of the announced directory, if there is one, ends inside the buffer. -/
def LastRecordEnds (buf : Buffer) (eocd : Nat) : Prop :=
  entryCount buf eocd = 0 ∨ recordsEnd buf (entryCount buf eocd) (cdOffset buf eocd) ≤ buf.length

/-- A record that is followed by a header inside the buffer is inside it as well. -/
theorem records_inside_iff {buf : Buffer} {n p : Nat} (h : ∀ q ∈ records buf n p, HeaderAt buf q) :
    (∀ q ∈ records buf n p, q + recordLength buf q ≤ buf.length) ↔
      n = 0 ∨ recordsEnd buf n p ≤ buf.length := by
  induction n generalizing p with
  | zero => simp [records]
  | succ n ih =>
    simp only [records, List.forall_mem_cons] at h ⊢
    rw [ih h.2]
    cases n with
    | zero => simp [recordsEnd]
    | succ n =>
      have hnext := (h.2 _ List.mem_cons_self).inside
      simp only [recordsEnd, Nat.succ_ne_zero, false_or]
      constructor
      · exact fun hboth => hboth.2
      · exact fun hend => ⟨by omega, hend⟩

/-! ## The reads -/

theorem readUInt32LE_inside {buf : Buffer} {i : Nat} (h : i + 4 ≤ buf.length) :
    readUInt32LE buf i = .ok (uint32At buf i) := if_pos h

theorem readUInt16LE_inside {buf : Buffer} {i : Nat} (h : i + 2 ≤ buf.length) :
    readUInt16LE buf i = .ok (uint16At buf i) := if_pos h

/-- Ended in a validation error. -/
def Refused {α : Type} (r : Except Fault α) : Prop := ∃ message, r = .error (.validation message)

theorem Refused.bind {α β : Type} {r : Except Fault α} (h : Refused r) (f : α → Except Fault β) :
    Refused (r >>= f) := by
  obtain ⟨message, rfl⟩ := h
  exact ⟨message, rfl⟩

theorem not_refused_ok {α : Type} {a : α} : ¬ Refused (.ok a : Except Fault α) := by
  rintro ⟨message, h⟩
  cases h

theorem scanBack_cases {buf : Buffer} {stop i : Nat} (hi : i + 4 ≤ buf.length) :
    scanBack buf stop i = .ok none ∨ ∃ e, scanBack buf stop i = .ok (some e) ∧ stop ≤ e ∧ e ≤ i ∧
      uint32At buf e = 0x06054b50 ∧ ∀ j, e < j → j ≤ i → uint32At buf j ≠ 0x06054b50 := by
  induction i with
  | zero =>
    by_cases hstop : stop = 0
    · rw [scanBack, if_pos hstop, readUInt32LE_inside hi]
      by_cases hsig : uint32At buf 0 = 0x06054b50
      · refine Or.inr ⟨0, ?_, hstop.le, le_rfl, hsig, fun j hj hj' => absurd hj (by omega)⟩
        simp only [hsig]
        rfl
      · left
        simp only [bind, Except.bind, hsig]
        rfl
    · left
      rw [scanBack, if_neg hstop]
  | succ i ih =>
    by_cases hstop : i + 1 < stop
    · left
      rw [scanBack, if_pos hstop]
    · rw [scanBack, if_neg hstop, readUInt32LE_inside hi]
      by_cases hsig : uint32At buf (i + 1) = 0x06054b50
      · refine Or.inr ⟨i + 1, ?_, by omega, le_rfl, hsig, fun j hj hj' => absurd hj (by omega)⟩
        simp only [hsig]
        rfl
      · have hgo : (Except.ok (uint32At buf (i + 1)) >>= fun v : Nat =>
            if v = 0x06054b50 then (return some (i + 1) : Except Fault (Option Nat)) else scanBack buf stop i) =
              scanBack buf stop i := if_neg hsig
        rw [hgo]
        rcases ih (by omega) with hnone | ⟨e, he, hlo, hhi, hfound, hlast⟩
        · exact Or.inl hnone
        · refine Or.inr ⟨e, he, hlo, by omega, hfound, fun j hj hj' => ?_⟩
          by_cases hlt : j ≤ i
          · exact hlast j hj hlt
          · obtain rfl : j = i + 1 := by omega
            exact hsig

/-! ## The entries -/

/-- The walk after the record at its place. -/
def Walk.next (decode : Buffer → List Char) (buf : Buffer) (w : Walk) : Walk :=
  { p := w.p + recordLength buf w.p
    totalUncompressed := w.totalUncompressed + uncompressedAt buf w.p
    totalCompressed := w.totalCompressed + compressedAt buf w.p
    names := w.names ++ [nameAt decode buf w.p] }

variable (decode : Buffer → List Char) (buf : Buffer)

theorem readEntry_cases (w : Walk) : Refused (readEntry decode buf w) ∨
    (HeaderAt buf w.p ∧ (w.next decode buf).totalUncompressed ≤ MAX_UNCOMPRESSED_TOTAL ∧
      readEntry decode buf w = .ok (w.next decode buf)) := by
  unfold readEntry
  by_cases hin : w.p + 46 > buf.length
  · rw [if_pos hin]
    exact Or.inl ⟨_, rfl⟩
  · rw [if_neg hin, readUInt32LE_inside (by omega), readUInt32LE_inside (by omega), readUInt32LE_inside (by omega),
      readUInt16LE_inside (by omega), readUInt16LE_inside (by omega), readUInt16LE_inside (by omega)]
    simp only [bind, Except.bind]
    by_cases hsig : uint32At buf w.p = 0x02014b50
    · rw [if_neg (not_not.mpr hsig)]
      by_cases hsize : uint32At buf (w.p + 24) = 0xffffffff ∨
          w.totalUncompressed + uint32At buf (w.p + 24) > MAX_UNCOMPRESSED_TOTAL
      · rw [if_pos hsize]
        exact Or.inl ⟨_, rfl⟩
      · rw [if_neg hsize]
        rw [not_or, not_lt] at hsize
        exact Or.inr ⟨⟨not_lt.mp hin, hsig, hsize.1⟩, hsize.2, rfl⟩
    · rw [if_pos hsig]
      exact Or.inl ⟨_, rfl⟩

/-- The walk after a number of records. -/
def Walk.after (w : Walk) (n : Nat) : Walk :=
  { p := recordsEnd buf n w.p
    totalUncompressed := w.totalUncompressed + sumUncompressed buf (records buf n w.p)
    totalCompressed := w.totalCompressed + sumCompressed buf (records buf n w.p)
    names := w.names ++ (records buf n w.p).map (nameAt decode buf) }

theorem after_next (w : Walk) (n : Nat) :
    (w.next decode buf).after decode buf n = w.after decode buf (n + 1) := by
  simp [Walk.after, Walk.next, records, recordsEnd, sumUncompressed, sumCompressed, Nat.add_assoc]

/-- The loop is refused, or every record has a sound header and the sums stay in bounds. -/
theorem readEntries_cases (n : Nat) (w : Walk) (hw : w.totalUncompressed ≤ MAX_UNCOMPRESSED_TOTAL) :
    Refused (readEntries decode buf n w) ∨
      ((∀ p ∈ records buf n w.p, HeaderAt buf p) ∧
        (w.after decode buf n).totalUncompressed ≤ MAX_UNCOMPRESSED_TOTAL ∧
        readEntries decode buf n w = .ok (w.after decode buf n)) := by
  induction n generalizing w with
  | zero =>
    right
    simp [records, recordsEnd, readEntries, Walk.after, sumUncompressed, sumCompressed, hw]
  | succ n ih =>
    rw [readEntries]
    rcases readEntry_cases decode buf w with hrefused | ⟨hheader, htotal, hok⟩
    · exact Or.inl (hrefused.bind _)
    · rw [hok, ← after_next]
      rcases ih (w.next decode buf) htotal with hrefused | ⟨hheaders, hsum, hrest⟩
      · exact Or.inl hrefused
      · refine Or.inr ⟨?_, hsum, hrest⟩
        rw [records, List.forall_mem_cons]
        exact ⟨hheader, hheaders⟩

/-! ## The names -/

theorem hasTwoDots_iff (s : List Char) : hasTwoDots s = true ↔ ['.', '.'] <:+: s := by
  induction s with
  | nil => simp [hasTwoDots]
  | cons c cs ih =>
    rw [hasTwoDots, Bool.or_eq_true, ih, List.infix_cons_iff]
    refine or_congr_left ?_
    cases cs with
    | nil => simp
    | cons d ds =>
      rw [List.cons_prefix_cons, List.cons_prefix_cons, Bool.and_eq_true, decide_eq_true_eq, decide_eq_true_eq,
        List.head?_cons, Option.some.injEq]
      constructor
      · rintro ⟨rfl, rfl⟩
        exact ⟨rfl, rfl, List.nil_prefix⟩
      · rintro ⟨rfl, rfl, -⟩
        exact ⟨rfl, rfl⟩

theorem checkName_cases (name : List Char) :
    Refused (checkName name) ∨ (SafeName name ∧ checkName name = .ok ()) := by
  unfold checkName
  by_cases hdots : hasTwoDots name = true
  · rw [if_pos hdots]
    exact Or.inl ⟨_, rfl⟩
  · rw [if_neg hdots]
    by_cases hvba : endsWith vbaProject name = true
    · rw [if_pos hvba]
      exact Or.inl ⟨_, rfl⟩
    · rw [if_neg hvba]
      by_cases hlinks : startsWith externalLinks name = true
      · rw [if_pos hlinks]
        exact Or.inl ⟨_, rfl⟩
      · rw [if_neg hlinks]
        rw [hasTwoDots_iff] at hdots
        exact Or.inr ⟨⟨hdots, by simpa using hvba, by simpa using hlinks⟩, rfl⟩

theorem checkNames_cases (names : List (List Char)) :
    Refused (names.forM checkName) ∨ ((∀ name ∈ names, SafeName name) ∧ names.forM checkName = .ok ()) := by
  induction names with
  | nil => exact Or.inr ⟨List.forall_mem_nil _, rfl⟩
  | cons name names ih =>
    change Refused (checkName name >>= fun _ => names.forM checkName) ∨
      (_ ∧ (checkName name >>= fun _ => names.forM checkName) = .ok ())
    rcases checkName_cases name with hrefused | ⟨hsafe, hok⟩
    · exact Or.inl (hrefused.bind _)
    · rw [hok]
      rcases ih with hrefused | ⟨hall, hrest⟩
      · exact Or.inl hrefused
      · exact Or.inr ⟨List.forall_mem_cons.mpr ⟨hsafe, hall⟩, hrest⟩

/-! ## The whole check -/

/-- Refused, or returned on a buffer with a safe directory. -/
theorem assertSafeXlsx_cases (filename : List Char) : Refused (assertSafeXlsx decode buf filename) ∨
    (assertSafeXlsx decode buf filename = .ok () ∧ ∃ eocd, SafeDirectory decode buf eocd) := by
  unfold assertSafeXlsx
  by_cases hname : endsWith xlsxSuffix filename = false
  · rw [if_pos hname]
    exact Or.inl ⟨_, rfl⟩
  rw [if_neg hname]
  by_cases hempty : buf.length = 0
  · rw [if_pos hempty]
    exact Or.inl ⟨_, rfl⟩
  rw [if_neg hempty]
  by_cases hlarge : buf.length > MAX_FILE_BYTES
  · rw [if_pos hlarge]
    exact Or.inl ⟨_, rfl⟩
  rw [if_neg hlarge]
  by_cases hshort : buf.length < 22
  · rw [if_pos hshort]
    exact Or.inl ⟨_, rfl⟩
  rw [if_neg hshort, readUInt32LE_inside (by omega)]
  by_cases hsig : uint32At buf 0 = 0x04034b50
  swap
  · exact Or.inl ⟨_, if_pos hsig⟩
  rw [show (Except.ok (uint32At buf 0) >>= _ : Except Fault Unit) = _ from if_neg (not_not.mpr hsig)]
  have htail : buf.length - 22 + 4 ≤ buf.length := by omega
  rcases @scanBack_cases buf (buf.length - 22 - 65535) (buf.length - 22) htail with
    hnone | ⟨eocd, hfound, hlo, hhi, hend, hlast⟩
  · rw [hnone]
    exact Or.inl ⟨_, rfl⟩
  rw [hfound]
  have hinside : eocd + 22 ≤ buf.length := by omega
  have hrecord : LastEndRecord buf eocd :=
    ⟨hinside, by omega, hend, fun i hi hi' => hlast i hi (by omega)⟩
  simp only [bind, Except.bind]
  rw [readUInt16LE_inside (by omega), readUInt32LE_inside (by omega)]
  dsimp only
  by_cases hzip64 : uint16At buf (eocd + 10) = 0xffff ∨ uint32At buf (eocd + 16) = 0xffffffff
  · rw [if_pos hzip64]
    exact Or.inl ⟨_, rfl⟩
  rw [if_neg hzip64]
  by_cases hmany : uint16At buf (eocd + 10) > MAX_ENTRIES
  · rw [if_pos hmany]
    exact Or.inl ⟨_, rfl⟩
  rw [if_neg hmany]
  rcases readEntries_cases decode buf (uint16At buf (eocd + 10)) ⟨uint32At buf (eocd + 16), 0, 0, []⟩
    (Nat.zero_le _) with ⟨message, hrefused⟩ | ⟨hheaders, hsum, hok⟩
  · rw [hrefused]
    exact Or.inl ⟨message, rfl⟩
  rw [hok]
  dsimp only
  have hafter : Walk.after decode buf ⟨uint32At buf (eocd + 16), 0, 0, []⟩ (uint16At buf (eocd + 10)) =
      ⟨recordsEnd buf (entryCount buf eocd) (cdOffset buf eocd), sumUncompressed buf (headers buf eocd),
        sumCompressed buf (headers buf eocd), (headers buf eocd).map (nameAt decode buf)⟩ := by
    simp [Walk.after, headers, entryCount, cdOffset]
  rw [hafter] at hsum ⊢
  by_cases hbomb : isBomb ⟨recordsEnd buf (entryCount buf eocd) (cdOffset buf eocd),
      sumUncompressed buf (headers buf eocd), sumCompressed buf (headers buf eocd),
      (headers buf eocd).map (nameAt decode buf)⟩ = true
  · rw [if_pos hbomb]
    exact Or.inl ⟨_, rfl⟩
  rw [if_neg hbomb]
  rcases checkNames_cases ((headers buf eocd).map (nameAt decode buf)) with hrefused | ⟨hnames, hdone⟩
  · exact Or.inl hrefused
  refine Or.inr ⟨hdone, eocd, hrecord, not_lt.mp hmany, hheaders, hsum, ?_, ?_⟩
  · simpa [isBomb, and_assoc] using hbomb
  · intro p hp
    exact hnames _ (List.mem_map_of_mem hp)

/-- The directory that an accepted buffer announces: safe, and every record of it in the buffer. -/
def MeansWhatItSays : Prop := ∃ eocd, SafeDirectory decode buf eocd ∧ WholeRecords buf eocd

/-- The last record that the last end record announces, if any, ends inside the buffer. -/
def DirectoryEnds : Prop := ∀ eocd, LastEndRecord buf eocd → LastRecordEnds buf eocd

theorem whole_iff {decode : Buffer → List Char} {buf : Buffer} {eocd : Nat} (h : SafeDirectory decode buf eocd) :
    WholeRecords buf eocd ↔ LastRecordEnds buf eocd := records_inside_iff h.header

/-- The check always ends in acceptance or a validation error. Acceptance means a safe
directory, and means all that is said of it if and only if the last record ends inside the
buffer. -/
theorem assertSafeXlsx_means (filename : List Char) :
    (assertSafeXlsx decode buf filename = .ok () ∨ Refused (assertSafeXlsx decode buf filename)) ∧
      (assertSafeXlsx decode buf filename = .ok () →
        (∃ eocd, SafeDirectory decode buf eocd) ∧ (MeansWhatItSays decode buf ↔ DirectoryEnds buf)) := by
  rcases assertSafeXlsx_cases decode buf filename with hrefused | ⟨hok, eocd, hsafe⟩
  · refine ⟨Or.inr hrefused, fun hok => ?_⟩
    rw [hok] at hrefused
    exact absurd hrefused not_refused_ok
  · refine ⟨Or.inl hok, fun _ => ⟨⟨eocd, hsafe⟩, ?_, ?_⟩⟩
    · rintro ⟨e, he, hwhole⟩ e' he'
      obtain rfl := he.endRecord.unique he'
      exact (whole_iff he).mp hwhole
    · intro hends
      exact ⟨eocd, hsafe, (whole_iff hsafe).mpr (hends eocd hsafe.endRecord)⟩

/-! ## A name past the end -/

/-- Bytes below 128 are characters. -/
def decodeAscii (bytes : Buffer) : List Char := bytes.map fun b => Char.ofNat b.toNat

/-- The local signature, an end record for one entry at 26, and there the header of an entry
whose name of one byte is missing. -/
def cutOff : Buffer :=
  [0x50, 0x4b, 3, 4] ++
    [0x50, 0x4b, 5, 6, 0, 0, 0, 0, 1, 0, 1, 0, 46, 0, 0, 0, 26, 0, 0, 0, 0, 0] ++
    [0x50, 0x4b, 1, 2] ++ List.replicate 24 0 ++ [1, 0] ++ List.replicate 16 0

theorem lastEndRecord_cutOff : LastEndRecord cutOff 4 := by
  have hlast : ∀ i < 51, 4 < i → uint32At cutOff i ≠ 0x06054b50 := by decide
  refine ⟨by decide, by decide, by decide, fun i hi hin => hlast i ?_ hi⟩
  have hlen : cutOff.length = 72 := rfl
  omega

/-- The buffer is accepted, though its one record ends a byte after it. -/
theorem assertSafeXlsx_cutOff :
    assertSafeXlsx decodeAscii cutOff ['a', '.', 'x', 'l', 's', 'x'] = .ok () ∧
      ¬ MeansWhatItSays decodeAscii cutOff := by
  refine ⟨by decide, ?_⟩
  rintro ⟨eocd, hsafe, hwhole⟩
  obtain rfl := hsafe.endRecord.unique lastEndRecord_cutOff
  exact absurd ((whole_iff hsafe).mp hwhole) (by unfold LastRecordEnds; decide)

end SalesDashboard.Marcom.ZipGuard
