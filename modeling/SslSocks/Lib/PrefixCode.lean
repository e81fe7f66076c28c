import Mathlib

/-!
# Prefix codes

A prefix code writes each value of a domain as a nonempty list such that no
codeword begins another. A concatenation of codewords can then be cut in one way
only, and a prefix of the text that ends between two codewords is the text of a
prefix of the values (`PrefixCode.prefix_of_encodeAll`).
-/

namespace SslSocks.Lib

universe u v

/-- A code on the values of `dom`, with the two facts that make it readable. -/
structure PrefixCode (α : Type u) (β : Type v) where
  encode : α → List β
  dom : Set α
  ne_nil : ∀ x, encode x ≠ []
  prefixFree : ∀ {x y}, x ∈ dom → y ∈ dom → encode x <+: encode y → x = y

namespace PrefixCode

variable {α : Type u} {β : Type v} (code : PrefixCode α β)

/-- The codewords of the values, one after another. -/
def encodeAll (xs : List α) : List β := xs.flatMap code.encode

@[simp] theorem encodeAll_nil : code.encodeAll [] = [] := rfl

@[simp] theorem encodeAll_cons (x : α) (xs : List α) :
    code.encodeAll (x :: xs) = code.encode x ++ code.encodeAll xs := rfl

@[simp] theorem encodeAll_append (xs ys : List α) :
    code.encodeAll (xs ++ ys) = code.encodeAll xs ++ code.encodeAll ys := by
  simp only [encodeAll, List.flatMap_append]

theorem encodeAll_mono {xs ys : List α} (h : xs <+: ys) :
    code.encodeAll xs <+: code.encodeAll ys := by
  obtain ⟨rest, rfl⟩ := h
  rw [encodeAll_append]
  exact List.prefix_append _ _

variable {code}

/-- Two codewords at the head of one text are the same. -/
theorem eq_of_append {x y : α} (hx : x ∈ code.dom) (hy : y ∈ code.dom)
    {text : List β} (px : code.encode x <+: text) (py : code.encode y <+: text) :
    x = y := by
  rcases Nat.le_total (code.encode x).length (code.encode y).length with le | le
  · exact code.prefixFree hx hy (List.prefix_of_prefix_length_le px py le)
  · exact (code.prefixFree hy hx (List.prefix_of_prefix_length_le py px le)).symm

/-- Whole codewords that begin the text of `ys` are the text of a prefix of `ys`. -/
theorem prefix_of_encodeAll {xs ys : List α}
    (hxs : ∀ x ∈ xs, x ∈ code.dom) (hys : ∀ y ∈ ys, y ∈ code.dom)
    (h : code.encodeAll xs <+: code.encodeAll ys) : xs <+: ys := by
  induction xs generalizing ys with
  | nil => exact List.nil_prefix
  | cons x xs ih =>
    cases ys with
    | nil =>
      have empty : code.encodeAll (x :: xs) = [] := List.prefix_nil.mp h
      rw [encodeAll_cons, List.append_eq_nil_iff] at empty
      exact absurd empty.1 (code.ne_nil x)
    | cons y ys =>
      rw [encodeAll_cons, encodeAll_cons] at h
      have head : x = y :=
        eq_of_append (hxs x List.mem_cons_self) (hys y List.mem_cons_self)
          ((List.prefix_append _ _).trans h) (List.prefix_append _ _)
      subst head
      have tail : code.encodeAll xs <+: code.encodeAll ys :=
        (List.prefix_append_right_inj _).mp h
      exact List.cons_prefix_cons.mpr ⟨rfl,
        ih (fun z hz => hxs z (List.mem_cons_of_mem _ hz))
          (fun z hz => hys z (List.mem_cons_of_mem _ hz)) tail⟩

end PrefixCode

end SslSocks.Lib
