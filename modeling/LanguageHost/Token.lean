/-!
# Cancellation tokens

A token says whether some work is to stop.  Tokens are made from tokens: one that fires takes along
all that were made from it, directly or through others, and no other.  A token is named by the
scopes it was made in, the innermost first, so the tokens made from it are those whose names it
ends.
-/

namespace LanguageHost

/-- The name of a token: the scopes it was made in, the innermost first. -/
structure Token where
  scopes : List Nat
  deriving DecidableEq, Repr, Inhabited

namespace Token

/-- A token that was made from no other. -/
def root (n : Nat) : Token := ⟨[n]⟩

/-- A token made from another one. -/
def child (t : Token) (n : Nat) : Token := ⟨n :: t.scopes⟩

/-- Whether a token is another one or was made from it. -/
def under (t u : Token) : Bool := u.scopes.isSuffixOf t.scopes

/-- Whether a token has fired, where these ones were fired. -/
def firedBy (t : Token) (fired : List Token) : Bool := fired.any fun u => t.under u

theorem under_self (t : Token) : t.under t = true := by
  simp [under]

theorem child_under {t u : Token} (n : Nat) (h : t.under u = true) :
    (t.child n).under u = true := by
  simp only [under, child, List.isSuffixOf_iff_suffix] at h ⊢
  exact h.trans (List.suffix_cons n t.scopes)

end Token

end LanguageHost
