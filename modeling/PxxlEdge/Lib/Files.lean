import PxxlEdge.Lib.Map

/-!
A directory of files that are open while their names come and go.

Files have numbers, and names are bound to numbers.  Removing a name leaves the
file: what is written through a handle that is still open goes to a file that no
name leads to.

* `Dir.read_openAppend`, `Dir.read_append`, `Dir.read_remove`: what is read under a
  name after the operations.
-/

namespace Files

open RustStd List

structure Dir where
  files : List Text
  names : Map Text ℕ
  exists_file : ∀ name i, names.lookup name = some i → i < files.length

namespace Dir

variable (d : Dir)

def empty : Dir := ⟨[], ∅, fun name i h => by rw [AList.lookup_empty] at h; cases h⟩

def Listed (i : ℕ) : Prop := ∃ name, d.names.lookup name = some i

def read (name : Text) : Option Text := (d.names.lookup name).bind fun i => d.files[i]?

def create (name : Text) : Dir where
  files := d.files ++ [[]]
  names := d.names.insert name d.files.length
  exists_file n i h := by
    rw [length_append, length_singleton]
    by_cases hn : n = name
    · rw [hn, AList.lookup_insert] at h
      cases h
      exact Nat.lt_succ_self _
    · rw [AList.lookup_insert_ne hn] at h
      exact Nat.lt_succ_of_lt (d.exists_file n i h)

def openAppend (name : Text) : ℕ × Dir :=
  match d.names.lookup name with
  | some i => (i, d)
  | none => (d.files.length, d.create name)

def append (i : ℕ) (t : Text) : Dir where
  files := d.files.modify i fun contents => contents ++ t
  names := d.names
  exists_file n j h := by
    rw [length_modify]
    exact d.exists_file n j h

def remove (name : Text) : Dir where
  files := d.files
  names := d.names.erase name
  exists_file n i h := by
    by_cases hn : n = name
    · rw [hn, AList.lookup_erase] at h
      cases h
    · rw [AList.lookup_erase_ne hn] at h
      exact d.exists_file n i h

variable {d}

lemma exists_of_listed {i : ℕ} (h : d.Listed i) : ∃ t, d.files[i]? = some t := by
  obtain ⟨name, hname⟩ := h
  exact ⟨_, getElem?_eq_getElem (d.exists_file name i hname)⟩

/-! ### Opening -/

lemma files_create (name : Text) {j : ℕ} {t : Text} (h : (d.create name).files[j]? = some t) :
    d.files[j]? = some t ∨ t = [] := by
  change (d.files ++ [[]])[j]? = some t at h
  rw [getElem?_append] at h
  split at h
  · exact .inl h
  · exact .inr (mem_singleton.mp (mem_of_getElem? h))

lemma files_openAppend {name : Text} {j : ℕ} {t : Text}
    (h : (d.openAppend name).2.files[j]? = some t) : d.files[j]? = some t ∨ t = [] := by
  rw [openAppend] at h
  split at h
  · exact .inl h
  · exact files_create name h

lemma listed_openAppend (name : Text) : (d.openAppend name).2.Listed (d.openAppend name).1 := by
  rw [openAppend]
  split
  · next h => exact ⟨name, h⟩
  · exact ⟨name, AList.lookup_insert _⟩

lemma read_openAppend {name n : Text} {t : Text} (h : d.read n = some t) :
    (d.openAppend name).2.read n = some t := by
  rw [openAppend]
  split
  · exact h
  · next hnone =>
    obtain ⟨i, hi, ht⟩ := Option.bind_eq_some_iff.mp h
    have hn : n ≠ name := fun heq => by rw [heq, hnone] at hi; cases hi
    have hlookup : (d.create name).names.lookup n = some i :=
      (AList.lookup_insert_ne hn).trans hi
    rw [read, hlookup, Option.bind_some]
    exact (getElem?_append_left (d.exists_file n i hi)).trans ht

/-! ### Writing and removing -/

lemma files_append (i : ℕ) (t : Text) (j : ℕ) :
    (d.append i t).files[j]? =
      if i = j then d.files[j]?.map fun contents => contents ++ t else d.files[j]? := by
  rw [append, getElem?_modify]
  split
  · rfl
  · exact Option.map_id'

lemma read_append (i : ℕ) (t : Text) {n u : Text} (h : d.read n = some u) :
    ∃ v, (d.append i t).read n = some (u ++ v) := by
  obtain ⟨j, hj, hu⟩ := Option.bind_eq_some_iff.mp h
  have hread : (d.append i t).read n = (d.append i t).files[j]? := by
    change (d.names.lookup n).bind _ = _
    rw [hj, Option.bind_some]
  rw [hread, files_append, hu]
  split
  · exact ⟨t, rfl⟩
  · exact ⟨[], by rw [append_nil]⟩

lemma read_remove {name n : Text} (hn : n ≠ name) : (d.remove name).read n = d.read n := by
  change ((d.names.erase name).lookup n).bind _ = _
  rw [AList.lookup_erase_ne hn]
  rfl

lemma Listed.remove {i : ℕ} (h : d.Listed i) {name : Text}
    (hother : d.names.lookup name ≠ some i) : (d.remove name).Listed i := by
  obtain ⟨n, hn⟩ := h
  have hne : n ≠ name := fun heq => hother (heq ▸ hn)
  exact ⟨n, (AList.lookup_erase_ne hne).trans hn⟩

end Dir

end Files
