import PxxlEdge.Lib.Text

/-!
Templates with placeholders in two pairs of braces, which are replaced by values: all in one pass
over the template, or one after the other.
-/

namespace RustStd

open List

def replaceFrom (table : List (Text × Text)) : (skip : ℕ) → Text → Text
  | _, [] => []
  | skip + 1, _ :: s => replaceFrom table skip s
  | 0, c :: s =>
    match table.find? fun e => e.1.isPrefixOf (c :: s) with
    | some e => e.2 ++ replaceFrom table (e.1.length - 1) s
    | none => c :: replaceFrom table 0 s

def replaceKeys (table : List (Text × Text)) (s : Text) : Text := replaceFrom table 0 s

def replaceText (e : Text × Text) (s : Text) : Text := replaceKeys [e] s

def placeholder (name : Text) : Text := '{' :: '{' :: name ++ ['}', '}']

def BracesSettled (table : List (Text × Text)) (s : Text) : Prop :=
  ∀ t ∈ s.tails, ['{', '{'] <+: t → (∃ e ∈ table, e.1 <+: t) ∨
    ∃ w, w ≠ [] ∧ '{' ∉ w ∧ '{' :: '{' :: w <+: t ∧ ∀ e ∈ table, ¬ '{' :: '{' :: w <+: e.1

def BracesAlone : Text → Prop
  | [] => True
  | c :: s => (c = '{' → ∃ d ∈ s.head?, d ≠ '{') ∧ BracesAlone s

structure PlaceholderTable (table : List (Text × Text)) : Prop where
  placeholders : ∀ e ∈ table, ∃ name, '{' ∉ name ∧ e.1 = placeholder name
  apart : table.Pairwise fun e e' => ¬ e.1 <+: e'.1 ∧ ¬ e'.1 <+: e.1

variable {table : List (Text × Text)} {e e' : Text × Text}

/-! ### One pass -/

lemma replaceFrom_append {n : ℕ} {s : Text} (hn : s.length = n) (t : Text) :
    replaceFrom table n (s ++ t) = replaceKeys table t := by
  induction s generalizing n with
  | nil =>
    subst hn
    rfl
  | cons c s ih =>
    subst hn
    exact ih rfl

lemma replaceKeys_of_find {s : Text} (hne : e.1 ≠ [])
    (hfind : table.find? (fun e' => e'.1.isPrefixOf (e.1 ++ s)) = some e) :
    replaceKeys table (e.1 ++ s) = e.2 ++ replaceKeys table s := by
  obtain ⟨c, k, hkey⟩ := exists_cons_of_ne_nil hne
  rw [hkey, cons_append] at hfind ⊢
  rw [replaceKeys, replaceFrom, hfind]
  dsimp only
  rw [hkey, length_cons, Nat.add_sub_cancel, replaceFrom_append rfl]

lemma replaceKeys_cons {c : Char} {s : Text} (h : ∀ e ∈ table, ¬ e.1 <+: c :: s) :
    replaceKeys table (c :: s) = c :: replaceKeys table s := by
  have hnone : table.find? (fun e => e.1.isPrefixOf (c :: s)) = none :=
    find?_eq_none.mpr fun e he => by simpa using h e he
  rw [replaceKeys, replaceFrom, hnone]
  rfl

lemma filter_replaceFrom {p : Char → Bool} (hne : ∀ e ∈ table, e.1 ≠ [])
    (hkeys : ∀ e ∈ table, e.1.filter p = []) (hvalues : ∀ e ∈ table, e.2.filter p = [])
    (n : ℕ) (s : Text) : (replaceFrom table n s).filter p = (s.drop n).filter p := by
  induction s generalizing n with
  | nil => simp [replaceFrom]
  | cons c s ih =>
    cases n with
    | succ n => exact ih n
    | zero =>
      rw [replaceFrom]
      split
      next e hfind =>
        have he := mem_of_find?_eq_some hfind
        obtain ⟨d, k, hkey⟩ := exists_cons_of_ne_nil (hne e he)
        have hpre := find?_some hfind
        obtain ⟨rest, hrest⟩ := isPrefixOf_iff_prefix.mp hpre
        rw [hkey, cons_append, cons.injEq] at hrest
        obtain ⟨rfl, rfl⟩ := hrest
        have hfilter : (d :: (k ++ rest)).filter p = rest.filter p := by
          rw [← cons_append, ← hkey, filter_append, hkeys e he, nil_append]
        rw [filter_append, hvalues e he, nil_append, ih, hkey, length_cons, Nat.add_sub_cancel,
          drop_left, drop_zero, hfilter]
      next => rw [drop_zero, filter_cons, filter_cons, ih, drop_zero]

/-! ### One key -/

lemma not_prefix_cons {name s : Text} {c : Char} (h : c = '{' → s.head? ≠ some '{') :
    ¬ placeholder name <+: c :: s := by
  rintro ⟨t, ht⟩
  cases ht
  exact h rfl rfl

lemma BracesAlone.append {s t : Text} (hs : '{' ∉ s) (ht : BracesAlone t) :
    BracesAlone (s ++ t) := by
  induction s with
  | nil => exact ht
  | cons c s ih =>
    rw [mem_cons, not_or] at hs
    exact ⟨fun hc => absurd hc.symm hs.1, ih hs.2⟩

lemma BracesAlone.of_not_mem {s : Text} (hs : '{' ∉ s) : BracesAlone s := by
  simpa using BracesAlone.append (t := []) hs trivial

lemma BracesAlone.brace_cons {w : Text} (hw : '{' ∉ w) (hne : w ≠ []) : BracesAlone ('{' :: w) := by
  obtain ⟨c, w, rfl⟩ := exists_cons_of_ne_nil hne
  refine ⟨fun _ => ⟨c, rfl, ?_⟩, .of_not_mem hw⟩
  rintro rfl
  exact hw mem_cons_self

section Key

variable {name : Text} (he : e.1 = placeholder name)

include he

lemma replaceText_cons {c : Char} {s : Text} (h : c = '{' → s.head? ≠ some '{') :
    replaceText e (c :: s) = c :: replaceText e s ∧
      (c = '{' → (replaceText e s).head? ≠ some '{') := by
  have hcons : ∀ {c : Char} {s : Text}, (c = '{' → s.head? ≠ some '{') →
      replaceText e (c :: s) = c :: replaceText e s := fun h =>
    replaceKeys_cons fun e' he' => mem_singleton.mp he' ▸ he ▸ not_prefix_cons h
  refine ⟨hcons h, fun hc => ?_⟩
  cases s with
  | nil => simp [replaceText, replaceKeys, replaceFrom]
  | cons d s =>
    have hd : d ≠ '{' := by simpa using h hc
    rw [hcons fun heq => absurd heq hd]
    simpa using hd

lemma replaceText_append {s : Text} (hs : BracesAlone s) (t : Text) :
    replaceText e (s ++ t) = s ++ replaceText e t := by
  induction s with
  | nil => rfl
  | cons c s ih =>
    have halone : c = '{' → (s ++ t).head? ≠ some '{' := fun hc => by
      obtain ⟨d, hd, hne⟩ := hs.1 hc
      simpa [head?_append, Option.mem_def.mp hd] using hne
    rw [cons_append, (replaceText_cons he halone).1, ih hs.2, cons_append]

lemma replaceText_braces {w s : Text} (hw : '{' ∉ w) (hne : w ≠ [])
    (hother : ¬ e.1 <+: '{' :: '{' :: (w ++ s)) :
    replaceText e ('{' :: '{' :: (w ++ s)) = '{' :: '{' :: (w ++ replaceText e s) := by
  have hfirst : replaceText e ('{' :: '{' :: (w ++ s)) = '{' :: replaceText e ('{' :: (w ++ s)) :=
    replaceKeys_cons fun e' he' => mem_singleton.mp he' ▸ hother
  rw [hfirst, ← cons_append, replaceText_append he (.brace_cons hw hne)]
  rfl

lemma replaceText_self (s : Text) : replaceText e (e.1 ++ s) = e.2 ++ replaceText e s :=
  replaceKeys_of_find (he ▸ cons_ne_nil _ _) (by simp)

lemma replaceText_other {name' : Text} (hname' : '{' ∉ name')
    (hother : ¬ e.1 <+: placeholder name') (hother' : ¬ placeholder name' <+: e.1) (s : Text) :
    replaceText e (placeholder name' ++ s) = placeholder name' ++ replaceText e s := by
  have hnot : ¬ e.1 <+: placeholder name' ++ s := fun h =>
    ( prefix_or_prefix_of_prefix h (prefix_append _ _)).elim hother hother'
  exact replaceText_braces he (w := name' ++ ['}', '}']) (by simpa using hname') (by simp) hnot

end Key

/-! ### All keys -/

lemma BracesSettled.of_append {s t : Text} (h : BracesSettled table (s ++ t)) :
    BracesSettled table t :=
  fun u hu => h u ((mem_tails _ _).mpr (((mem_tails _ _).mp hu).trans (suffix_append s t)))

lemma foldl_replaceText_append {s : Text} (hs : BracesAlone s)
    (h : ∀ e ∈ table, ∃ name, e.1 = placeholder name) (t : Text) :
    table.foldl (fun t e => replaceText e t) (s ++ t) =
      s ++ table.foldl (fun t e => replaceText e t) t := by
  induction table generalizing t with
  | nil => rfl
  | cons e table ih =>
    obtain ⟨name, he⟩ := h e mem_cons_self
    rw [foldl_cons, foldl_cons, replaceText_append he hs,
      ih fun e' he' => h e' (mem_cons_of_mem _ he')]

lemma foldl_replaceText_cons {c : Char} {s : Text} (hs : c = '{' → s.head? ≠ some '{')
    (h : ∀ e ∈ table, ∃ name, e.1 = placeholder name) :
    table.foldl (fun t e => replaceText e t) (c :: s) =
      c :: table.foldl (fun t e => replaceText e t) s := by
  induction table generalizing s with
  | nil => rfl
  | cons e table ih =>
    obtain ⟨name, he⟩ := h e mem_cons_self
    obtain ⟨hstep, hs'⟩ := replaceText_cons he hs
    rw [foldl_cons, foldl_cons, hstep, ih hs' fun e' he' => h e' (mem_cons_of_mem _ he')]

lemma foldl_replaceText_braces {w s : Text} (hw : '{' ∉ w) (hne : w ≠ [])
    (h : ∀ e ∈ table, ∃ name, e.1 = placeholder name)
    (hother : ∀ e ∈ table, ¬ e.1 <+: '{' :: '{' :: w ∧ ¬ '{' :: '{' :: w <+: e.1) :
    table.foldl (fun t e => replaceText e t) ('{' :: '{' :: (w ++ s)) =
      '{' :: '{' :: (w ++ table.foldl (fun t e => replaceText e t) s) := by
  induction table generalizing s with
  | nil => rfl
  | cons e table ih =>
    obtain ⟨name, he⟩ := h e mem_cons_self
    have hnot : ¬ e.1 <+: '{' :: '{' :: (w ++ s) := fun hpre =>
      ( prefix_or_prefix_of_prefix hpre (prefix_append ('{' :: '{' :: w) s)).elim
        (hother e mem_cons_self).1 (hother e mem_cons_self).2
    rw [foldl_cons, foldl_cons, replaceText_braces he hw hne hnot,
      ih (fun e' he' => h e' (mem_cons_of_mem _ he'))
        fun e' he' => hother e' (mem_cons_of_mem _ he')]

lemma foldl_replaceText_key (htable : PlaceholderTable table)
    (hvalues : ∀ e ∈ table, BracesAlone e.2) (he : e ∈ table) (s : Text) :
    table.foldl (fun t e => replaceText e t) (e.1 ++ s) =
      e.2 ++ table.foldl (fun t e => replaceText e t) s := by
  induction table generalizing s with
  | nil => cases he
  | cons first table ih =>
    obtain ⟨hfirst, htables⟩ := pairwise_cons.mp htable.apart
    obtain ⟨name, hname, hkey⟩ := htable.placeholders first mem_cons_self
    have hrest : PlaceholderTable table :=
      ⟨fun e' he' => htable.placeholders e' (mem_cons_of_mem _ he'), htables⟩
    rw [foldl_cons, foldl_cons]
    rcases mem_cons.mp he with rfl | he
    · rw [replaceText_self hkey]
      exact foldl_replaceText_append (hvalues e mem_cons_self)
        (fun e' he' => (hrest.placeholders e' he').imp fun _ => And.right) _
    · obtain ⟨name', hname', hkey'⟩ := hrest.placeholders e he
      have hapart := hfirst e he
      rw [hkey'] at hapart
      rw [hkey', replaceText_other hkey hname' hapart.1 hapart.2, ← hkey',
        ih hrest (fun e' he' => hvalues e' (mem_cons_of_mem _ he')) he]

lemma find?_key (htable : PlaceholderTable table) (he : e ∈ table) (s : Text) :
    table.find? (fun e' => e'.1.isPrefixOf (e.1 ++ s)) = some e := by
  induction table with
  | nil => cases he
  | cons first table ih =>
    obtain ⟨hfirst, htables⟩ := pairwise_cons.mp htable.apart
    rcases mem_cons.mp he with rfl | he
    · simp
    · rw [find?_cons_of_neg, ih
        ⟨fun e' he' => htable.placeholders e' (mem_cons_of_mem _ he'), htables⟩ he]
      rw [ isPrefixOf_iff_prefix]
      exact fun h => ( prefix_or_prefix_of_prefix h (prefix_append _ _)).elim
        (hfirst e he).1 (hfirst e he).2

theorem foldl_replaceText_eq (htable : PlaceholderTable table)
    (hvalues : ∀ e ∈ table, BracesAlone e.2) {s : Text} (h : BracesSettled table s) :
    table.foldl (fun t e => replaceText e t) s = replaceKeys table s := by
  have hkeys : ∀ e ∈ table, ∃ name, e.1 = placeholder name := fun e he =>
    (htable.placeholders e he).imp fun _ => And.right
  -- by induction on the length: the template begins with a key, or with a character
  induction hlength : s.length using Nat.strong_induction_on generalizing s with
  | _ n ih =>
    subst hlength
    by_cases hkey : ∃ e ∈ table, e.1 <+: s
    · obtain ⟨e, he, rest, rfl⟩ := hkey
      obtain ⟨name, hname⟩ := hkeys e he
      have hne : e.1 ≠ [] := hname ▸ cons_ne_nil _ _
      have hshort : rest.length < (e.1 ++ rest).length := by
        have := length_pos_iff.mpr hne
        rw [length_append]
        omega
      rw [foldl_replaceText_key htable hvalues he, ih _ hshort h.of_append rfl,
        replaceKeys_of_find hne (find?_key htable he rest)]
    · cases s with
      | nil => exact table.foldlRecOn (motive := (· = [])) _ rfl fun t ht e _ => by rw [ht]; rfl
      | cons c s =>
        have hstep : replaceKeys table (c :: s) = c :: replaceKeys table s :=
          replaceKeys_cons fun e he hpre => hkey ⟨e, he, hpre⟩
        have hrest := ih s.length (by simp) (BracesSettled.of_append (s := [c]) h) rfl
        by_cases halone : c = '{' → s.head? ≠ some '{'
        · rw [foldl_replaceText_cons halone hkeys, hrest, hstep]
        · obtain ⟨rfl, hhead⟩ := Classical.not_imp.mp halone
          obtain ⟨s, rfl⟩ := head?_eq_some_iff.mp (not_not.mp hhead)
          obtain hfound | ⟨w, hne, hw, ⟨rest, hrest'⟩, hother⟩ :=
            h _ ((mem_tails _ _).mpr suffix_rfl) ⟨s, rfl⟩
          · exact absurd hfound hkey
          · obtain rfl : w ++ rest = s := by simpa using hrest'
            have hpass := foldl_replaceText_append (.brace_cons hw hne) hkeys rest
            have hbraces := foldl_replaceText_braces (s := rest) hw hne hkeys fun e he =>
              ⟨fun hpre => hkey ⟨e, he, hpre.trans (prefix_append ('{' :: '{' :: w) rest)⟩,
                hother e he⟩
            rw [hbraces, hstep, ← hrest]
            exact congrArg (cons '{') hpass.symm

lemma filter_foldl_replaceText {p : Char → Bool} (hne : ∀ e ∈ table, e.1 ≠ [])
    (hkeys : ∀ e ∈ table, e.1.filter p = []) (hvalues : ∀ e ∈ table, e.2.filter p = [])
    (s : Text) : (table.foldl (fun t e => replaceText e t) s).filter p = s.filter p :=
  table.foldlRecOn (motive := fun t => t.filter p = s.filter p) _ rfl fun t ht e he =>
    (filter_replaceFrom (by simpa using hne e he) (by simpa using hkeys e he)
      (by simpa using hvalues e he) 0 t).trans ht

end RustStd
