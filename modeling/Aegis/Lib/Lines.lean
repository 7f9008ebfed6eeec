/-
  Aegis.Lib.Lines

  Lines of a text, and the text without the blanks at its ends.

  `lines` cuts a text at its line breaks; what follows the last break is a line
  too unless it is empty.  So a text that is cut off somewhere gives the lines
  before the cut and the start of the one that was cut.

  Blanks are words of several symbols (`trim`).  All that is needed of trimming
  is that it stops at a symbol that occurs in no blank.
-/

import Mathlib.Data.List.Infix

namespace Aegis.Lib

variable {β : Type _} [DecidableEq β]

/-! ## Lines -/

def lines (newline : β) : List β → List (List β)
  | [] => []
  | b :: bs =>
      if b = newline then [] :: lines newline bs
      else
        match lines newline bs with
        | [] => [[b]]
        | line :: rest => (b :: line) :: rest

section Lines

variable {newline : β}

theorem lines_append {line : List β} (h : newline ∉ line) (rest : List β) :
    lines newline (line ++ newline :: rest) = line :: lines newline rest := by
  induction line with
  | nil => rw [List.nil_append, lines, if_pos rfl]
  | cons b line ih =>
      have hne : b ≠ newline := fun heq => h (heq ▸ List.mem_cons_self ..)
      rw [List.cons_append, lines, if_neg hne, ih fun hmem => h (List.mem_cons_of_mem _ hmem)]

/-- The unfinished line. -/
theorem lines_single {line : List β} (h : newline ∉ line) (hne : line ≠ []) :
    lines newline line = [line] := by
  induction line with
  | nil => exact absurd rfl hne
  | cons b line ih =>
      have hb : b ≠ newline := fun heq => h (heq ▸ List.mem_cons_self ..)
      rw [lines, if_neg hb]
      cases line with
      | nil => rw [lines]
      | cons c line => rw [ih (fun hmem => h (List.mem_cons_of_mem _ hmem)) (List.cons_ne_nil _ _)]

end Lines

/-! ## Blanks -/

/-- Without the blanks at the start.  The number bounds how many are removed. -/
def trimStart (blanks : List (List β)) : Nat → List β → List β
  | 0, bs => bs
  | n + 1, bs =>
      match blanks.find? fun blank => blank.isPrefixOf bs with
      | none => bs
      | some blank => trimStart blanks n (bs.drop blank.length)

def trimEnd (blanks : List (List β)) (bs : List β) : List β :=
  (trimStart (blanks.map List.reverse) bs.length bs.reverse).reverse

/-- Without the blanks at both ends. -/
def trim (blanks : List (List β)) (bs : List β) : List β :=
  trimEnd blanks (trimStart blanks bs.length bs)

section Trim

variable {blanks : List (List β)} {b : β}

/-- Trimming does not go past a symbol that occurs in no blank. -/
theorem trimStart_through (hb : ∀ blank ∈ blanks, b ∉ blank) (n : Nat) (u v : List β) :
    ∃ v', v' <:+ v ∧ trimStart blanks n (v ++ b :: u) = v' ++ b :: u := by
  induction n generalizing v with
  | zero => exact ⟨v, List.suffix_refl v, rfl⟩
  | succ n ih =>
      rw [trimStart]
      split
      · exact ⟨v, List.suffix_refl v, rfl⟩
      · next blank hfind =>
          have hmem := List.mem_of_find?_eq_some hfind
          have hstart : blank <+: v ++ b :: u := by
            simpa using List.find?_some hfind
          -- the blank ends before the symbol
          have hinside : blank <+: v := by
            rcases List.prefix_or_prefix_of_prefix hstart (List.prefix_append v (b :: u)) with h | h
            · exact h
            · obtain ⟨w, rfl⟩ := h
              cases w with
              | nil => rw [List.append_nil]
              | cons c w =>
                  have htail := (List.prefix_append_right_inj v).mp hstart
                  rw [(List.cons_prefix_cons.mp htail).1] at hmem
                  exact absurd (List.mem_append_right _ (List.mem_cons_self ..)) (hb _ hmem)
          have hlength := hinside.length_le
          rw [List.drop_append_of_le_length hlength]
          obtain ⟨v', hsuffix, heq⟩ := ih (v.drop blank.length)
          exact ⟨v', hsuffix.trans (List.drop_suffix _ _), heq⟩

theorem trimStart_eq_self (hb : ∀ blank ∈ blanks, b ∉ blank) (n : Nat) (u : List β) :
    trimStart blanks n (b :: u) = b :: u := by
  obtain ⟨v', hsuffix, heq⟩ := trimStart_through hb n u []
  rw [List.suffix_nil.mp hsuffix] at heq
  exact heq

theorem trimEnd_through (hb : ∀ blank ∈ blanks, b ∉ blank) (u v : List β) :
    ∃ v', v' <+: v ∧ trimEnd blanks (u ++ b :: v) = u ++ b :: v' := by
  have hb' : ∀ blank ∈ blanks.map List.reverse, b ∉ blank := by
    intro blank hblank
    obtain ⟨original, horiginal, rfl⟩ := List.mem_map.mp hblank
    rw [List.mem_reverse]
    exact hb original horiginal
  obtain ⟨v', hsuffix, heq⟩ :=
    trimStart_through hb' (u ++ b :: v).length u.reverse v.reverse
  refine ⟨v'.reverse, ?_, ?_⟩
  · rw [← List.reverse_suffix, List.reverse_reverse]
    exact hsuffix
  · rw [trimEnd, List.reverse_append, List.reverse_cons, List.append_assoc, List.singleton_append,
      heq, List.reverse_append, List.reverse_cons, List.reverse_reverse, List.append_assoc,
      List.singleton_append]

theorem trimEnd_eq_self (hb : ∀ blank ∈ blanks, b ∉ blank) (u : List β) :
    trimEnd blanks (u ++ [b]) = u ++ [b] := by
  obtain ⟨v', hinit, heq⟩ := trimEnd_through hb u []
  rw [List.prefix_nil.mp hinit] at heq
  exact heq

end Trim

end Aegis.Lib
