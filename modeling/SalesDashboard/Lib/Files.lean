import SalesDashboard.Lib.Keyed

/-! Files by path: reading, writing and removing one, and the first name of a sequence that
is not taken. -/

namespace Files

variable {κ β : Type*} [DecidableEq κ]

/-- What is at each path. -/
abbrev Disk (κ β : Type*) := List (κ × β)

def read (d : Disk κ β) (p : κ) : Option β := (d.find? fun file => decide (file.1 = p)).map Prod.snd

def remove (d : Disk κ β) (p : κ) : Disk κ β := d.filter fun file => decide (file.1 ≠ p)

def write (d : Disk κ β) (p : κ) (b : β) : Disk κ β := (p, b) :: remove d p

/-- How many names are taken before the first free one. -/
def firstFree (d : Disk κ β) (name : Nat → κ) : Option Nat :=
  (List.range (d.length + 1)).find? fun n => (read d (name n)).isNone

@[simp] theorem read_write_self (d : Disk κ β) (p : κ) (b : β) : read (write d p b) p = some b := by
  simp [read, write]

@[simp] theorem read_remove_self (d : Disk κ β) (p : κ) : read (remove d p) p = none := by
  simp [read, remove]

theorem read_remove_ne {d : Disk κ β} {p q : κ} (h : q ≠ p) : read (remove d p) q = read d q := by
  have hfind : (remove d p).find? (fun file => decide (file.1 = q)) = d.find? fun file => decide (file.1 = q) := by
    rw [remove, List.find?_filter]
    congr 1
    funext file
    by_cases hq : file.1 = q
    · simp [hq, h]
    · simp [hq]
  rw [read, hfind, read]

theorem read_write_ne {d : Disk κ β} {p q : κ} (h : q ≠ p) (b : β) : read (write d p b) q = read d q := by
  have hcons : read (write d p b) q = read (remove d p) q := by simp [read, write, h.symm]
  rw [hcons, read_remove_ne h]

theorem mem_of_read {d : Disk κ β} {p : κ} (h : read d p ≠ none) : p ∈ d.map Prod.fst := by
  obtain ⟨b, hb⟩ := Option.ne_none_iff_exists'.mp h
  obtain ⟨file, hfile, -⟩ := Option.map_eq_some_iff.mp hb
  have hp := List.find?_some hfile
  exact List.mem_map.mpr ⟨file, List.mem_of_find?_eq_some hfile, of_decide_eq_true hp⟩

theorem read_firstFree {d : Disk κ β} {name : Nat → κ} {n : Nat} (h : firstFree d name = some n) :
    read d (name n) = none := by
  have hn := List.find?_some h
  exact Option.isNone_iff_eq_none.mp hn

/-- **The search ends**: names that differ are not all taken. -/
theorem exists_firstFree (d : Disk κ β) {name : Nat → κ} (hname : Function.Injective name) :
    ∃ n, firstFree d name = some n := by
  by_contra hnone
  have htaken : ∀ n ∈ List.range (d.length + 1), read d (name n) ≠ none := by
    intro n hn hfree
    have hfind : firstFree d name = none := Option.eq_none_iff_forall_not_mem.mpr fun k hk => hnone ⟨k, hk⟩
    have := List.find?_eq_none.mp hfind n hn
    rw [hfree] at this
    exact this rfl
  have hnodup : ((List.range (d.length + 1)).map name).Nodup := List.nodup_range.map hname
  have hsub : (List.range (d.length + 1)).map name ⊆ d.map Prod.fst := by
    intro p hp
    obtain ⟨n, hn, rfl⟩ := List.mem_map.mp hp
    exact mem_of_read (htaken n hn)
  have hle := (hnodup.subperm hsub).length_le
  simp only [List.length_map, List.length_range] at hle
  omega

end Files
