import Mathlib.Data.List.Basic

/-!
# Scanning a text with quotes and parentheses

A text is read from left to right. What lies between two quotes does not count;
outside of them the parentheses are counted. The scan says where a part of a text
ends without knowing how the part was written.

## Main definitions

* `Paired`: quotes are paired, and the characters outside of them are restricted;
* `Nesting.scan`: reads a text, and stops where a parenthesis closes that is not
  open or where a forbidden character stands outside of all parentheses;
* `Operand`: a text that every scan passes and that leaves the nesting as it was;
* `Inner`: the same for a text that stands inside parentheses;
* `Parenthesised`: a text that one pair of parentheses encloses.

## Main statements

* `Operand.parenthesised`: parentheses around an operand enclose it;
* `Operand.append_inj`: an operand ends where the scan stops, so a text is split
  into an operand and a rest in one way only.
-/

namespace SqlSelect

/-- A text in which quotes are paired and every character outside of them is
    `ok`. -/
inductive Paired (ok : Char → Prop) : List Char → Prop
  | nil : Paired ok []
  | char {c : Char} {l : List Char} (hc : ok c) (hl : Paired ok l) : Paired ok (c :: l)
  | quoted {s l : List Char} (hs : '\'' ∉ s) (hl : Paired ok l) :
      Paired ok ('\'' :: (s ++ '\'' :: l))

namespace Paired

variable {ok ok' : Char → Prop} {l r : List Char}

theorem append (hl : Paired ok l) (hr : Paired ok r) : Paired ok (l ++ r) := by
  induction hl with
  | nil => exact hr
  | char hc _ ih => exact .char hc ih
  | quoted hs _ ih =>
    rw [List.cons_append, List.append_assoc, List.cons_append]
    exact .quoted hs ih

theorem mono (h : ∀ c, ok c → ok' c) (hl : Paired ok l) : Paired ok' l := by
  induction hl with
  | nil => exact .nil
  | char hc _ ih => exact .char (h _ hc) ih
  | quoted hs _ ih => exact .quoted hs ih

/-- A text without quotes, all of whose characters are allowed. -/
theorem of_forall (h : ∀ c ∈ l, ok c) : Paired ok l := by
  induction l with
  | nil => exact .nil
  | cons c l ih =>
    exact .char (h c List.mem_cons_self) (ih fun d hd => h d (List.mem_cons_of_mem c hd))

theorem head (hl : Paired ok l) {c : Char} (hc : l.head? = some c) : c = '\'' ∨ ok c := by
  cases hl with
  | nil => simp at hc
  | char hd _ =>
    obtain rfl := Option.some.inj hc
    exact .inr hd
  | quoted _ _ => exact .inl (Option.some.inj hc).symm

theorem enclosed {s : List Char} (hs : '\'' ∉ s) : Paired ok ('\'' :: (s ++ ['\''])) :=
  .quoted hs .nil

end Paired

/-- Where a reader stands in a text: between quotes or not, and inside how many
    parentheses. -/
structure Nesting where
  quoted : Bool
  depth : Nat
deriving DecidableEq

namespace Nesting

/-- The nesting after one more character. Between quotes only the quote that ends
    them counts. Outside of them there is no next nesting at a parenthesis that
    closes nothing, nor at a character of `stop` outside of all parentheses. -/
def step (stop : Char → Bool) (s : Nesting) (c : Char) : Option Nesting :=
  if c = '\'' then some { s with quoted := !s.quoted }
  else if s.quoted then some s
  else if c = '(' then some { s with depth := s.depth + 1 }
  else if c = ')' then if s.depth = 0 then none else some { s with depth := s.depth - 1 }
  else if s.depth = 0 ∧ stop c then none
  else some s

def scan (stop : Char → Bool) (s : Nesting) (text : List Char) : Option Nesting :=
  text.foldlM (step stop) s

variable {stop : Char → Bool} {s : Nesting} {d : Nat}

@[simp] theorem scan_nil : scan stop s [] = some s := rfl

theorem scan_cons (c : Char) (l : List Char) :
    scan stop s (c :: l) = (step stop s c).bind fun t => scan stop t l := rfl

theorem scan_append (l r : List Char) :
    scan stop s (l ++ r) = (scan stop s l).bind fun t => scan stop t r :=
  List.foldlM_append

/-- A parenthesis that opens takes the scan one level deeper. -/
theorem scan_open (l : List Char) :
    scan stop ⟨false, d⟩ ('(' :: l) = scan stop ⟨false, d + 1⟩ l := by
  have hopen : step stop ⟨false, d⟩ '(' = some ⟨false, d + 1⟩ := by simp [step]
  rw [scan_cons, hopen, Option.bind_some]

/-- Between quotes nothing but a quote counts. -/
theorem scan_quoted {l : List Char} (h : '\'' ∉ l) :
    scan stop ⟨true, d⟩ l = some ⟨true, d⟩ := by
  induction l with
  | nil => rfl
  | cons c l ih =>
    rw [List.mem_cons, not_or] at h
    obtain ⟨hc, hl⟩ := h
    have hstep : step stop ⟨true, d⟩ c = some ⟨true, d⟩ := by
      rw [step, if_neg (Ne.symm hc), if_pos rfl]
    rw [scan_cons, hstep]
    exact ih hl

/-- A character that a scan passes by: it is no quote, no parenthesis, and not one at
    which the scan stops. -/
def Harmless (stop : Char → Bool) (c : Char) : Prop :=
  c ≠ '\'' ∧ c ≠ '(' ∧ c ≠ ')' ∧ stop c = false

instance (stop : Char → Bool) (c : Char) : Decidable (Harmless stop c) :=
  inferInstanceAs (Decidable (_ ∧ _))

theorem ne_of_class {p : Char → Bool} {c a : Char} (hc : p c = true) (ha : p a = false) :
    c ≠ a := by
  rintro rfl
  simp [hc] at ha

/-- The members of a class without quotes and parentheses are harmless where no scan
    stops at them. -/
theorem harmless_of_class {p : Char → Bool} {c : Char}
    (hp : p '\'' = false ∧ p '(' = false ∧ p ')' = false) (hc : p c = true)
    (hstop : stop c = false) : Harmless stop c :=
  ⟨ne_of_class hc hp.1, ne_of_class hc hp.2.1, ne_of_class hc hp.2.2, hstop⟩

theorem step_of_harmless {c : Char} (h : Harmless stop c) :
    step stop ⟨false, d⟩ c = some ⟨false, d⟩ := by
  obtain ⟨hq, ho, hp, hs⟩ := h
  simp [step, hq, ho, hp, hs]

/-- A text that is read up to its end is read up to the end of every part it starts
    with. -/
theorem exists_scan_of_isPrefix {t : Nesting} {l pre : List Char} (h : scan stop s l = some t)
    (hpre : pre <+: l) : ∃ u, scan stop s pre = some u := by
  obtain ⟨rest, rfl⟩ := hpre
  rw [scan_append, Option.bind_eq_some_iff] at h
  obtain ⟨u, hu, -⟩ := h
  exact ⟨u, hu⟩

/-- What one character can do to the nesting. -/
theorem step_cases {t : Nesting} {c : Char} (h : step stop s c = some t) :
    (c = '\'' ∧ t = ⟨!s.quoted, s.depth⟩) ∨
      (c ≠ '\'' ∧ s.quoted = true ∧ t = s) ∨
      (s.quoted = false ∧ c = '(' ∧ t = ⟨false, s.depth + 1⟩) ∨
      (s.quoted = false ∧ c = ')' ∧ 0 < s.depth ∧ t = ⟨false, s.depth - 1⟩) ∨
      (s.quoted = false ∧ (c ≠ '\'' ∧ c ≠ '(' ∧ c ≠ ')') ∧ ¬(s.depth = 0 ∧ stop c = true) ∧
        t = s) := by
  obtain ⟨quoted, depth⟩ := s
  unfold step at h
  by_cases hquote : c = '\''
  · rw [if_pos hquote] at h
    exact .inl ⟨hquote, (Option.some.inj h).symm⟩
  rw [if_neg hquote] at h
  cases quoted with
  | true => exact .inr (.inl ⟨hquote, rfl, (Option.some.inj h).symm⟩)
  | false =>
    rw [if_neg Bool.false_ne_true] at h
    by_cases hopen : c = '('
    · rw [if_pos hopen] at h
      exact .inr (.inr (.inl ⟨rfl, hopen, (Option.some.inj h).symm⟩))
    rw [if_neg hopen] at h
    by_cases hclose : c = ')'
    · rw [if_pos hclose] at h
      split at h
      · cases h
      · next hdepth =>
        exact .inr (.inr (.inr (.inl
          ⟨rfl, hclose, Nat.pos_of_ne_zero hdepth, (Option.some.inj h).symm⟩)))
    rw [if_neg hclose] at h
    split at h
    · cases h
    · next hstop =>
      exact .inr (.inr (.inr (.inr
        ⟨rfl, ⟨hquote, hopen, hclose⟩, hstop, (Option.some.inj h).symm⟩)))

/-- What is read where nothing stops a scan is read alike inside further parentheses,
    where nothing does either. -/
theorem step_deeper (stop : Char → Bool) {t : Nesting} {c : Char}
    (h : step (fun _ => false) s c = some t) (k : Nat) :
    step stop ⟨s.quoted, s.depth + (k + 1)⟩ c = some ⟨t.quoted, t.depth + (k + 1)⟩ := by
  -- The further parentheses are open, so the depth is positive.
  obtain ⟨rfl, rfl⟩ | ⟨hquote, hquoted, rfl⟩ | ⟨hquoted, rfl, rfl⟩ |
    ⟨hquoted, rfl, hdepth, rfl⟩ | ⟨hquoted, ⟨hquote, hopen, hclose⟩, -, rfl⟩ := step_cases h
  · simp [step]
  · simp [step, hquote, hquoted]
  · simp [step, hquoted]
    omega
  · simp [step, hquoted]
    omega
  · simp [step, hquoted, hquote, hopen, hclose]

theorem scan_deeper (stop : Char → Bool) {t : Nesting} {l : List Char}
    (h : scan (fun _ => false) s l = some t) (k : Nat) :
    scan stop ⟨s.quoted, s.depth + (k + 1)⟩ l = some ⟨t.quoted, t.depth + (k + 1)⟩ := by
  induction l generalizing s with
  | nil =>
    obtain rfl := Option.some.inj h
    rfl
  | cons c l ih =>
    rw [scan_cons, Option.bind_eq_some_iff] at h
    obtain ⟨u, hstep, hscan⟩ := h
    rw [scan_cons, step_deeper stop hstep k, Option.bind_some]
    exact ih hscan

end Nesting

open Nesting

/-- A text that leaves the nesting as it was, however deep it stands. -/
def Operand (stop : Char → Bool) (l : List Char) : Prop :=
  ∀ d, scan stop ⟨false, d⟩ l = some ⟨false, d⟩

/-- A text that leaves the nesting as it was inside parentheses. -/
def Inner (stop : Char → Bool) (l : List Char) : Prop :=
  ∀ d, scan stop ⟨false, d + 1⟩ l = some ⟨false, d + 1⟩

section

variable {stop : Char → Bool} {ok : Char → Prop} {l r : List Char}

theorem Operand.nil : Operand stop [] := fun _ => rfl

theorem Operand.append (hl : Operand stop l) (hr : Operand stop r) :
    Operand stop (l ++ r) := by
  intro d
  rw [scan_append, hl d]
  exact hr d

theorem Operand.inner (hl : Operand stop l) : Inner stop l := fun d => hl (d + 1)

/-- Where nothing stops a scan an operand may hold what it likes, so inside parentheses it
    may too. -/
theorem Operand.inside (hl : Operand (fun _ => false) l) : Inner stop l := by
  intro d
  have hdeeper := scan_deeper stop (hl 0) d
  rwa [Nat.zero_add] at hdeeper

theorem Inner.append (hl : Inner stop l) (hr : Inner stop r) : Inner stop (l ++ r) := by
  intro d
  rw [scan_append, hl d]
  exact hr d

/-- Parentheses make an operand of whatever may stand inside them. -/
theorem Inner.parens (hl : Inner stop l) : Operand stop ('(' :: (l ++ [')'])) := by
  intro d
  have hclose : step stop ⟨false, d + 1⟩ ')' = some ⟨false, d⟩ := by simp [step]
  rw [scan_open, scan_append, hl d, Option.bind_some, scan_cons, hclose, Option.bind_some,
    scan_nil]

/-- A text that starts with a parenthesis which is closed by its last character and not
    before: wherever else the text is cut, a parenthesis is open. -/
def Parenthesised (stop : Char → Bool) (l : List Char) : Prop :=
  ∃ inner, l = '(' :: (inner ++ [')']) ∧
    ∀ pre, pre <+: inner → ∃ s, scan stop ⟨false, 0⟩ ('(' :: pre) = some s ∧ 0 < s.depth

/-- Parentheses around an operand are closed by no part of it. -/
theorem Operand.parenthesised (hl : Operand (fun _ => false) l) (stop : Char → Bool) :
    Parenthesised stop ('(' :: (l ++ [')'])) := by
  refine ⟨l, rfl, ?_⟩
  intro pre hpre
  obtain ⟨u, hu⟩ := exists_scan_of_isPrefix (hl 0) hpre
  have hdeeper := scan_deeper stop hu 0
  exact ⟨⟨u.quoted, u.depth + 1⟩, (scan_open pre).trans hdeeper, Nat.succ_pos _⟩

/-- A text with paired quotes passes a scan at a depth where none of its other
    characters counts. -/
theorem Paired.scan_eq {d : Nat} (hl : Paired ok l)
    (hok : ∀ c, ok c → step stop ⟨false, d⟩ c = some ⟨false, d⟩) :
    scan stop ⟨false, d⟩ l = some ⟨false, d⟩ := by
  induction hl with
  | nil => rfl
  | char hc _ ih =>
    rw [scan_cons, hok _ hc]
    exact ih
  -- Quotes are left at the depth at which they were entered.
  | @quoted s l hs _ ih =>
    have hopen : step stop ⟨false, d⟩ '\'' = some ⟨true, d⟩ := rfl
    have hclose : step stop ⟨true, d⟩ '\'' = some ⟨false, d⟩ := rfl
    rw [scan_cons, hopen, Option.bind_some, scan_append, scan_quoted hs, Option.bind_some,
      scan_cons, hclose, Option.bind_some]
    exact ih

theorem Paired.operand (hl : Paired ok l) (hok : ∀ c, ok c → Harmless stop c) :
    Operand stop l :=
  fun _ => hl.scan_eq fun c hc => step_of_harmless (hok c hc)

theorem Operand.of_forall (h : ∀ c ∈ l, Harmless stop c) : Operand stop l :=
  (Paired.of_forall h).operand fun _ hc => hc

/-! ### Where an operand ends -/

/-- A rest before which the scan of an operand stops: it is empty, or no operand can
    go on with its first character. -/
def Stopped (stop : Char → Bool) (r : List Char) : Prop :=
  ∀ c ∈ r.head?, step stop ⟨false, 0⟩ c = none

theorem Stopped.of_stop {c : Char} (hs : stop c = true) (hq : c ≠ '\'') (ho : c ≠ '(') :
    Stopped stop (c :: r) := by
  simp [Stopped, step, hs, hq, ho]

/-- An operand does not go on where a scan stops. -/
theorem Operand.eq_nil_of_stopped (hl : Operand stop (l ++ r)) (hleft : Operand stop l)
    (hr : Stopped stop r) : r = [] := by
  cases r with
  | nil => rfl
  | cons c r =>
    have hc : step stop ⟨false, 0⟩ c = none := hr c rfl
    have h := hl 0
    rw [scan_append, hleft 0, Option.bind_some, scan_cons, hc] at h
    simp at h

/-- A text is an operand before a stop in one way only. -/
theorem Operand.append_inj {l₁ l₂ r₁ r₂ : List Char} (h₁ : Operand stop l₁)
    (h₂ : Operand stop l₂) (hr₁ : Stopped stop r₁) (hr₂ : Stopped stop r₂)
    (h : l₁ ++ r₁ = l₂ ++ r₂) : l₁ = l₂ ∧ r₁ = r₂ := by
  -- One operand is a part of the other, and what is left of it starts like a stop.
  obtain ⟨a, rfl, rfl⟩ | ⟨a, rfl, rfl⟩ := List.append_eq_append_iff.1 h
  · have ha : Stopped stop a := fun c hc => hr₁ c (List.mem_head?_append_of_mem_head? hc)
    have := h₂.eq_nil_of_stopped h₁ ha
    simp [this]
  · have ha : Stopped stop a := fun c hc => hr₂ c (List.mem_head?_append_of_mem_head? hc)
    have := h₁.eq_nil_of_stopped h₂ ha
    simp [this]

end

end SqlSelect
