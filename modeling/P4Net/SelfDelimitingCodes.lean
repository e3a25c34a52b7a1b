import Mathlib.Data.List.Basic
import Mathlib.Tactic.Common

/-!
# Self-delimiting codes

A code writes a value as a list of symbols.  It is self-delimiting when a value can
be read back from the left whatever follows it, so that values written one after
another are determined by the whole list.

* `Delimits code` is that property; `Delimits.of_read` proves it from a reader.
* `Delimits.pair`, `Delimits.items` and `Delimits.sized` write pairs, lists with a
  closing symbol, and lists behind their length.
* `delimits_closed` closes an injective code by a symbol that it never uses.

Nothing in this module refers to a particular format.
-/

namespace P4Net
namespace Codes

universe u v w

variable {α : Type u} {β : Type v} {σ : Type w}

/-- A written value and what follows it are both determined by the list. -/
def Delimits (code : α → List σ) : Prop :=
  ∀ (x y : α) (rest rest' : List σ),
    code x ++ rest = code y ++ rest' → x = y ∧ rest = rest'

/-- A list of values, each written by `code`, closed by `close`. -/
def items (code : α → List σ) (close : σ) : List α → List σ
  | [] => [close]
  | x :: xs => code x ++ items code close xs

namespace Delimits

theorem injective
    {code : α → List σ}
    (h : Delimits code) :
    Function.Injective code := by
  intro x y hxy
  exact (h x y [] [] (by rw [hxy])).1

/-- A reader that recovers the value and the rest makes a code self-delimiting. -/
theorem of_read
    {code : α → List σ}
    (read : List σ → Option (α × List σ))
    (hread : ∀ x rest, read (code x ++ rest) = some (x, rest)) :
    Delimits code := by
  intro x y rest rest' h
  have hx := hread x rest
  rw [h, hread y rest'] at hx
  obtain ⟨rfl, rfl⟩ := Prod.mk.inj (Option.some.inj hx)
  exact ⟨rfl, rfl⟩

/-- A code of one value behind a code of another. -/
theorem pair
    {code : α → List σ} {code' : β → List σ}
    (h : Delimits code) (h' : Delimits code') :
    Delimits (fun p : α × β => code p.1 ++ code' p.2) := by
  intro x y rest rest' heq
  simp only [List.append_assoc] at heq
  obtain ⟨hfst, hrest⟩ := h x.1 y.1 _ _ heq
  obtain ⟨hsnd, htail⟩ := h' x.2 y.2 _ _ hrest
  exact ⟨Prod.ext hfst hsnd, htail⟩

theorem comp
    {code : α → List σ} {f : β → α}
    (h : Delimits code) (hf : Function.Injective f) :
    Delimits (fun x => code (f x)) := by
  intro x y rest rest' heq
  obtain ⟨hxy, htail⟩ := h (f x) (f y) rest rest' heq
  exact ⟨hf hxy, htail⟩

/-- A fixed list before every written value. -/
theorem behind
    {code : α → List σ}
    (h : Delimits code) (opening : List σ) :
    Delimits (fun x => opening ++ code x) := by
  intro x y rest rest' heq
  simp only [List.append_assoc] at heq
  exact h x y rest rest' (List.append_cancel_left heq)

/-- A fixed list after every written value. -/
theorem before
    {code : α → List σ}
    (h : Delimits code) (closing : List σ) :
    Delimits (fun x => code x ++ closing) := by
  intro x y rest rest' heq
  simp only [List.append_assoc] at heq
  obtain ⟨hxy, hrest⟩ := h x y _ _ heq
  exact ⟨hxy, List.append_cancel_left hrest⟩

/-- The closing symbol ends a list of values when no value begins with it. -/
theorem items
    {code : α → List σ} {close : σ}
    (h : Delimits code)
    (hbegin : ∀ x, ∃ s tail, code x = s :: tail ∧ s ≠ close) :
    Delimits (Codes.items code close) := by
  intro xs
  induction xs with
  | nil =>
      intro ys rest rest' heq
      cases ys with
      | nil => exact ⟨rfl, (List.cons.inj heq).2⟩
      | cons y ys =>
          obtain ⟨s, tail, hs, hne⟩ := hbegin y
          simp only [Codes.items, hs, List.cons_append, List.nil_append] at heq
          exact absurd (List.cons.inj heq).1.symm hne
  | cons x xs ih =>
      intro ys rest rest' heq
      cases ys with
      | nil =>
          obtain ⟨s, tail, hs, hne⟩ := hbegin x
          simp only [Codes.items, hs, List.cons_append, List.nil_append] at heq
          exact absurd (List.cons.inj heq).1 hne
      | cons y ys =>
          simp only [Codes.items, List.append_assoc] at heq
          obtain ⟨hxy, hrest⟩ := h x y _ _ heq
          obtain ⟨hxs, htail⟩ := ih ys rest rest' hrest
          exact ⟨by rw [hxy, hxs], htail⟩

/-- A list of symbols behind a self-delimiting code of its length. -/
theorem sized
    {code : Nat → List σ}
    (h : Delimits code) :
    Delimits (fun value : List σ => code value.length ++ value) := by
  intro x y rest rest' heq
  simp only [List.append_assoc] at heq
  obtain ⟨hlen, hrest⟩ := h x.length y.length _ _ heq
  exact List.append_inj hrest hlen

end Delimits

/-- An injective code closed by a symbol that it never uses. -/
theorem delimits_closed
    {code : α → List σ} {close : σ}
    (hinj : Function.Injective code)
    (havoid : ∀ x, close ∉ code x) :
    Delimits (fun x => code x ++ [close]) := by
  have hwords : ∀ (u v rest rest' : List σ), close ∉ u → close ∉ v →
      u ++ close :: rest = v ++ close :: rest' → u = v ∧ rest = rest' := by
    intro u
    induction u with
    | nil =>
        intro v rest rest' _ hv heq
        cases v with
        | nil => exact ⟨rfl, (List.cons.inj heq).2⟩
        | cons s v =>
            obtain ⟨rfl, -⟩ := List.cons.inj heq
            exact absurd List.mem_cons_self hv
    | cons s u ih =>
        intro v rest rest' hu hv heq
        cases v with
        | nil =>
            obtain ⟨rfl, -⟩ := List.cons.inj heq
            exact absurd List.mem_cons_self hu
        | cons s' v =>
            obtain ⟨rfl, htail⟩ := List.cons.inj heq
            obtain ⟨rfl, hrest⟩ := ih v rest rest'
              (fun hmem => hu (List.mem_cons_of_mem _ hmem))
              (fun hmem => hv (List.mem_cons_of_mem _ hmem)) htail
            exact ⟨rfl, hrest⟩
  intro x y rest rest' heq
  simp only [List.append_assoc, List.singleton_append] at heq
  obtain ⟨hcode, hrest⟩ := hwords _ _ rest rest' (havoid x) (havoid y) heq
  exact ⟨hinj hcode, hrest⟩

end Codes
end P4Net
