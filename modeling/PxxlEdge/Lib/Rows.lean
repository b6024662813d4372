import PxxlEdge.Lib.Text

/-!
Files of rows: each value is written as one line, and read back line by line.

A file that is written by appending may end in the middle of a row.  What was
written before, up to the last end of a line, is read back whatever follows.
-/

namespace Rows

open RustStd List

def stripCr (line : Text) : Text := if line.getLast? = some '\r' then line.dropLast else line

def lines (contents : Text) : List Text :=
  let pieces := contents.splitOn '\n'
  pieces.dropLast.map stripCr ++ pieces.getLast?.toList.filter fun line => !line.isEmpty

structure Codec (ε : Type) where
  encode : ε → Text
  decode : Text → Option ε
  decode_encode : ∀ e, decode (encode e) = some e
  not_mem_encode : ∀ e, '\n' ∉ encode e
  trim_encode : ∀ e, Text.trim (encode e) ≠ []
  getLast_encode : ∀ e, (encode e).getLast? ≠ some '\r'

def Ended (t : Text) : Prop := t = [] ∨ ∃ u, t = u ++ ['\n']

lemma ended_append {t u : Text} : Ended (t ++ (u ++ ['\n'])) :=
  .inr ⟨t ++ u, (append_assoc ..).symm⟩

lemma mem_lines {pre line post : Text} (hpre : Ended pre) (hline : '\n' ∉ line)
    (hcr : line.getLast? ≠ some '\r') : line ∈ lines (pre ++ (line ++ '\n' :: post)) := by
  have hrest : (line ++ '\n' :: post).splitOn '\n' = line :: post.splitOn '\n' := by
    rw [splitOn_append_cons_self, splitOn_eq_singleton hline]
    rfl
  have hpieces : ∃ before, (pre ++ (line ++ '\n' :: post)).splitOn '\n' =
      before ++ (line :: post.splitOn '\n') := by
    rcases hpre with rfl | ⟨u, rfl⟩
    · exact ⟨[], hrest⟩
    · refine ⟨u.splitOn '\n', ?_⟩
      rw [append_assoc, singleton_append, splitOn_append_cons_self, hrest]
  obtain ⟨before, hbefore⟩ := hpieces
  have hdrop : (before ++ (line :: post.splitOn '\n')).dropLast =
      before ++ line :: (post.splitOn '\n').dropLast := by
    rw [dropLast_append_of_ne_nil (cons_ne_nil _ _),
      dropLast_cons_of_ne_nil (splitOn_ne_nil '\n' post)]
  have hmem : line ∈ (before ++ (line :: post.splitOn '\n')).dropLast := by
    rw [hdrop]
    exact mem_append_right _ mem_cons_self
  rw [lines, hbefore]
  exact mem_append_left _ (mem_map.mpr ⟨line, hmem, if_neg hcr⟩)

namespace Codec

variable {ε : Type} (c : Codec ε)

def row (e : ε) : Text := c.encode e ++ ['\n']

def parse (contents : Text) : List ε :=
  ((lines contents).filter fun line => !(Text.trim line).isEmpty).filterMap c.decode

def HasRow (t : Text) (e : ε) : Prop := ∃ pre post, Ended pre ∧ t = pre ++ (c.row e ++ post)

variable {c}

lemma HasRow.append {t : Text} {e : ε} (h : c.HasRow t e) (u : Text) : c.HasRow (t ++ u) e := by
  obtain ⟨pre, post, hpre, rfl⟩ := h
  exact ⟨pre, post ++ u, hpre, by simp only [append_assoc]⟩

lemma hasRow_of_ended {pre : Text} (h : Ended pre) (e : ε) : c.HasRow (pre ++ c.row e) e :=
  ⟨pre, [], h, by rw [append_nil]⟩

lemma mem_parse {t : Text} {e : ε} (h : c.HasRow t e) : e ∈ c.parse t := by
  obtain ⟨pre, post, hpre, rfl⟩ := h
  have hline : c.encode e ∈ lines (pre ++ (c.row e ++ post)) := by
    rw [row, append_assoc, singleton_append]
    exact mem_lines hpre (c.not_mem_encode e) (c.getLast_encode e)
  refine mem_filterMap.mpr ⟨c.encode e, mem_filter.mpr ⟨hline, ?_⟩, c.decode_encode e⟩
  rw [Bool.not_eq_true', isEmpty_eq_false_iff]
  exact c.trim_encode e

end Codec

end Rows
