/-
  Aegis.Lib.Delimited

  Words that can be told apart when they stand in a longer text.

  `Reads stop f a` says that no other word of the code `f` can stand where
  `f a` stands, provided that the text goes on with a symbol in `stop` or ends.
  With `stop` all symbols this makes `f` free of prefixes; numbers written in
  digits need a `stop`.  Words listed between brackets and separated by a symbol
  in `stop` can be told apart again, now whatever follows (`Reads.listed`).
-/

import Mathlib.Data.List.Basic

namespace Aegis.Lib

variable {α β : Type _}

/-- The text ends, or goes on with a symbol in `stop`. -/
def Ends (stop : β → Prop) : List β → Prop
  | [] => True
  | b :: _ => stop b

/-- The word of `a` determines `a` and what follows it. -/
def Reads (stop : β → Prop) (f : α → List β) (a : α) : Prop :=
  ∀ b r r', Ends stop r → Ends stop r' → f a ++ r = f b ++ r' → a = b ∧ r = r'

/-- Whatever follows. -/
def Anything (_ : β) : Prop := True

theorem ends_anything (r : List β) : Ends Anything r := by
  cases r <;> trivial

/-- The words that consist of symbols outside `stop`. -/
theorem reads_of_injective {stop : β → Prop} [DecidablePred stop] {f : α → List β}
    (hf : Function.Injective f) (hinside : ∀ a, ∀ b ∈ f a, ¬stop b) (a : α) :
    Reads stop f a := by
  -- the word is the longest start of the text outside `stop`
  have hword : ∀ (c : α) (r : List β), Ends stop r →
      (f c ++ r).takeWhile (fun b => decide ¬stop b) = f c := by
    intro c r hr
    rw [List.takeWhile_append_of_pos fun b hb => decide_eq_true (hinside c b hb)]
    cases r with
    | nil => simp
    | cons b r =>
        have hstop : stop b := hr
        simp [hstop]
  intro b r r' hr hr' heq
  have hsame := congrArg (List.takeWhile fun x => decide ¬stop x) heq
  rw [hword a r hr, hword b r' hr'] at hsame
  rw [hsame] at heq
  exact ⟨hf hsame, List.append_cancel_left heq⟩

/-- Two words that are read one after the other. -/
theorem Reads.pair {γ : Type _} {stop : β → Prop} {f : α → List β} {g : γ → List β} {a : α} {c : γ}
    (hf : Reads Anything f a) (hg : Reads stop g c) (sep : β) :
    Reads stop (fun x : α × γ => f x.1 ++ sep :: g x.2) (a, c) := by
  rintro ⟨a', c'⟩ r r' hr hr' heq
  simp only [List.append_assoc, List.cons_append] at heq
  obtain ⟨rfl, hrest⟩ := hf a' _ _ (ends_anything _) (ends_anything _) heq
  obtain ⟨rfl, hends⟩ := hg c' r r' hr hr' (List.cons.inj hrest).2
  exact ⟨rfl, hends⟩

/-- Words one after the other, up to a symbol that starts none of them. -/
theorem Reads.closed {f : α → List β} {close : β} (hf : ∀ a, Reads Anything f a)
    (hnonempty : ∀ a, ∃ b rest, f a = b :: rest ∧ b ≠ close) (items : List α) :
    Reads Anything (fun items : List α => items.flatMap f ++ [close]) items := by
  intro items' r r' _ _ h
  simp only [List.append_assoc, List.cons_append, List.nil_append] at h
  induction items generalizing items' with
  | nil =>
      cases items' with
      | nil => exact ⟨rfl, (List.cons.inj h).2⟩
      | cons b items' =>
          obtain ⟨x, rest, hword, hx⟩ := hnonempty b
          rw [List.flatMap_nil, List.nil_append, List.flatMap_cons, hword] at h
          exact absurd (List.cons.inj h).1.symm hx
  | cons a items ih =>
      cases items' with
      | nil =>
          obtain ⟨x, rest, hword, hx⟩ := hnonempty a
          rw [List.flatMap_nil, List.nil_append, List.flatMap_cons, hword] at h
          exact absurd (List.cons.inj h).1 hx
      | cons b items' =>
          rw [List.flatMap_cons, List.flatMap_cons, List.append_assoc, List.append_assoc] at h
          obtain ⟨rfl, hrest⟩ := hf a b _ _ (ends_anything _) (ends_anything _) h
          obtain ⟨rfl, hends⟩ := ih items' hrest
          exact ⟨rfl, hends⟩

/-! ## Lists -/

/-- The words after the first, and the closing bracket. -/
def tail (sep close : β) : List (List β) → List β
  | [] => [close]
  | word :: words => sep :: word ++ tail sep close words

/-- Words between brackets. -/
def listed («open» sep close : β) : List (List β) → List β
  | [] => [«open», close]
  | word :: words => «open» :: word ++ tail sep close words

/-- A list of words ends with the closing bracket. -/
theorem listed_eq («open» sep close : β) (words : List (List β)) :
    ∃ inner, listed «open» sep close words = «open» :: inner ++ [close] := by
  have htail : ∀ words : List (List β), ∃ inner, tail sep close words = inner ++ [close] := by
    intro words
    induction words with
    | nil => exact ⟨[], rfl⟩
    | cons word words ih =>
        obtain ⟨inner, hinner⟩ := ih
        exact ⟨sep :: word ++ inner, by rw [tail, hinner, List.append_assoc]⟩
  cases words with
  | nil => exact ⟨[], rfl⟩
  | cons word words =>
      obtain ⟨inner, hinner⟩ := htail words
      refine ⟨word ++ inner, ?_⟩
      rw [listed, hinner, List.cons_append, List.cons_append, List.append_assoc]

/-- The symbols of a list of words. -/
theorem listed_forall {P : β → Prop} {«open» sep close : β} {words : List (List β)}
    (hopen : P «open») (hsep : P sep) (hclose : P close) (h : ∀ word ∈ words, ∀ b ∈ word, P b) :
    ∀ b ∈ listed «open» sep close words, P b := by
  have htail : ∀ words : List (List β), (∀ word ∈ words, ∀ b ∈ word, P b) →
      ∀ b ∈ tail sep close words, P b := by
    intro words
    induction words with
    | nil =>
        intro _ b hb
        rw [List.mem_singleton.mp hb]
        exact hclose
    | cons word words ih =>
        intro h b hb
        rw [tail, List.cons_append] at hb
        rcases List.mem_cons.mp hb with rfl | hb
        · exact hsep
        · rcases List.mem_append.mp hb with hb | hb
          · exact h word (List.mem_cons_self ..) b hb
          · exact ih (fun w hw => h w (List.mem_cons_of_mem _ hw)) b hb
  intro b hb
  cases words with
  | nil =>
      rcases List.mem_cons.mp hb with rfl | hb
      · exact hopen
      · rw [List.mem_singleton.mp hb]
        exact hclose
  | cons word words =>
      rw [listed, List.cons_append] at hb
      rcases List.mem_cons.mp hb with rfl | hb
      · exact hopen
      · rcases List.mem_append.mp hb with hb | hb
        · exact h word (List.mem_cons_self ..) b hb
        · exact htail words (fun w hw => h w (List.mem_cons_of_mem _ hw)) b hb

section Listed

variable {stop : β → Prop} {f : α → List β} {sep close : β}

theorem ends_tail (hsep : stop sep) (hclose : stop close) (words : List (List β)) (r : List β) :
    Ends stop (tail sep close words ++ r) := by
  cases words with
  | nil => exact hclose
  | cons word words => exact hsep

theorem reads_tail (hsep : stop sep) (hclose : stop close) (hne : sep ≠ close) {items : List α}
    (hitems : ∀ a ∈ items, Reads stop f a) (items' : List α) {r r' : List β}
    (h : tail sep close (items.map f) ++ r = tail sep close (items'.map f) ++ r') :
    items = items' ∧ r = r' := by
  induction items generalizing items' with
  | nil =>
      cases items' with
      | nil => exact ⟨rfl, (List.cons.inj h).2⟩
      | cons b items' => exact absurd (List.cons.inj h).1.symm hne
  | cons a items ih =>
      cases items' with
      | nil => exact absurd (List.cons.inj h).1 hne
      | cons b items' =>
          simp only [List.map_cons, tail, List.cons_append, List.append_assoc] at h
          have hread := hitems a (List.mem_cons_self ..)
          obtain ⟨rfl, hrest⟩ := hread b _ _ (ends_tail hsep hclose _ r)
            (ends_tail hsep hclose _ r') (List.cons.inj h).2
          obtain ⟨rfl, hends⟩ := ih (fun c hc => hitems c (List.mem_cons_of_mem _ hc)) _ hrest
          exact ⟨rfl, hends⟩

/-- **Lists of words** can be told apart whatever follows them. -/
theorem Reads.listed («open» : β) (hsep : stop sep) (hclose : stop close) (hne : sep ≠ close)
    (hnonempty : ∀ a, ∃ b rest, f a = b :: rest ∧ b ≠ close) {items : List α}
    (hitems : ∀ a ∈ items, Reads stop f a) :
    Reads Anything (fun items : List α => listed «open» sep close (items.map f)) items := by
  intro items' r r' _ _ h
  cases items with
  | nil =>
      cases items' with
      | nil => exact ⟨rfl, (List.cons.inj (List.cons.inj h).2).2⟩
      | cons b items' =>
          obtain ⟨x, rest, hword, hx⟩ := hnonempty b
          simp only [List.map_cons, List.map_nil, Lib.listed, hword, List.cons_append] at h
          exact absurd (List.cons.inj (List.cons.inj h).2).1.symm hx
  | cons a items =>
      cases items' with
      | nil =>
          obtain ⟨x, rest, hword, hx⟩ := hnonempty a
          simp only [List.map_cons, List.map_nil, Lib.listed, hword, List.cons_append] at h
          exact absurd (List.cons.inj (List.cons.inj h).2).1 hx
      | cons b items' =>
          simp only [List.map_cons, Lib.listed, List.cons_append, List.append_assoc] at h
          have hread := hitems a (List.mem_cons_self ..)
          obtain ⟨rfl, hrest⟩ := hread b _ _ (ends_tail hsep hclose _ r)
            (ends_tail hsep hclose _ r') (List.cons.inj h).2
          obtain ⟨rfl, hends⟩ := reads_tail hsep hclose hne
            (fun c hc => hitems c (List.mem_cons_of_mem _ hc)) _ hrest
          exact ⟨rfl, hends⟩

end Listed

end Aegis.Lib
