import TableDocs.Sql.Lexeme

/-!
# TableDocs — groups in parentheses

A group is what stands between an opening parenthesis and the one that closes it. This module finds
the end of a group, says when parentheses balance, and splits a group at the commas outside further
parentheses.
-/

namespace TableDocs.Sql

/-- A closed group: the lexemes inside, the closing parenthesis and what follows it. -/
structure Group where
  inner : List Lexeme
  close : Lexeme
  rest : List Lexeme

namespace Group

/-- Finds the end of the group whose opening parenthesis has just been read, with `depth` more open
inside it. -/
def close? (depth : Nat) : List Lexeme → Option Group
  | [] => none
  | l :: ls =>
    if l.isPunct .openParen then
      (close? (depth + 1) ls).map fun g => { g with inner := l :: g.inner }
    else if l.isPunct .closeParen then
      match depth with
      | 0 => some ⟨[], l, ls⟩
      | d + 1 => (close? d ls).map fun g => { g with inner := l :: g.inner }
    else (close? depth ls).map fun g => { g with inner := l :: g.inner }

theorem length_of_close? {depth : Nat} {ls : List Lexeme} {g : Group}
    (h : close? depth ls = some g) : g.inner.length + g.rest.length + 1 = ls.length := by
  induction ls generalizing depth g with
  | nil => simp [close?] at h
  | cons l ls ih =>
    have step : ∀ {d : Nat} {g' : Group}, close? d ls = some g' →
        ({ g' with inner := l :: g'.inner } : Group) = g →
        g.inner.length + g.rest.length + 1 = (l :: ls).length := by
      intro d g' hs he
      subst he
      have := ih hs
      simp only [List.length_cons]
      omega
    unfold close? at h
    split at h
    · obtain ⟨g', hs, he⟩ := Option.map_eq_some_iff.1 h
      exact step hs he
    · split at h
      · cases depth with
        | zero =>
          simp only [Option.some.injEq] at h
          subst h
          simp
        | succ d =>
          obtain ⟨g', hs, he⟩ := Option.map_eq_some_iff.1 h
          exact step hs he
      · obtain ⟨g', hs, he⟩ := Option.map_eq_some_iff.1 h
        exact step hs he

/-- Reads a group at the front: its opening parenthesis, then the group. -/
def read? : List Lexeme → Option (Lexeme × Group)
  | [] => none
  | l :: ls => if l.isPunct .openParen then (close? 0 ls).map fun g => (l, g) else none

/-- Do the parentheses balance, with `depth` open before? -/
def balancedFrom (depth : Nat) : List Lexeme → Bool
  | [] => depth == 0
  | l :: ls =>
    if l.isPunct .openParen then balancedFrom (depth + 1) ls
    else if l.isPunct .closeParen then
      match depth with
      | 0 => false
      | d + 1 => balancedFrom d ls
    else balancedFrom depth ls

/-- Does every parenthesis have its partner? -/
def balanced (ls : List Lexeme) : Bool :=
  balancedFrom 0 ls

/-- How a lexeme changes the depth of parentheses. -/
def depthStep (l : Lexeme) : Int :=
  if l.isPunct .openParen then 1 else if l.isPunct .closeParen then -1 else 0

/-- Splits at the commas of depth zero; the depth falls below zero after parentheses that close
without having been opened. -/
def segmentsFrom (depth : Int) : List Lexeme → List (List Lexeme)
  | [] => [[]]
  | l :: ls =>
    if l.isPunct .comma && depth == 0 then [] :: segmentsFrom depth ls
    else match segmentsFrom (depth + depthStep l) ls with
      | [] => [[l]]
      | first :: others => (l :: first) :: others

/-- The stretches between the commas outside parentheses. -/
def segments (ls : List Lexeme) : List (List Lexeme) :=
  segmentsFrom 0 ls

end Group

end TableDocs.Sql
