import Colloquy.Settings

/-!
# Colloquy — laws of looking up settings

The first scope that has a value decides a look-up (`Settings.get_of_value?`); but where
settings are looked up for a server, all scopes refined by a part of its name come before the
first plain one (`Settings.getForUrl_of_value?`).
-/

namespace Colloquy.Settings

variable {s : Settings}

/-- The value that is set for a key within a scope. -/
def value? (s : Settings) (scope key : String) : Option String :=
  List.lookup (scope, key) s.byScope

theorem inScopes?_cons (key scope : String) (rest : List String) :
    s.inScopes? key (scope :: rest) = (s.value? scope key).or (s.inScopes? key rest) := by
  rw [inScopes?, value?]
  cases List.lookup (scope, key) s.byScope <;> rfl

/-- The first scopes decide if one of them has a value. -/
theorem inScopes?_append (key : String) (first rest : List String) :
    s.inScopes? key (first ++ rest) = (s.inScopes? key first).or (s.inScopes? key rest) := by
  induction first with
  | nil => rfl
  | cons scope first ih =>
    rw [List.cons_append, inScopes?_cons, inScopes?_cons, ih, Option.or_assoc]

variable {env : Environment} {key scope value : String} {scopes envNames : List String}
  {default? : Option String}

theorem get_of_inScopes? (h : s.inScopes? key scopes = some value) :
    s.get env key scopes envNames default? = some value := by
  rw [get, h]

/-- The first scope decides if it has a value. -/
theorem get_of_value? (h : s.value? scope key = some value) (rest : List String) :
    s.get env key (scope :: rest) envNames default? = some value := by
  refine get_of_inScopes? ?_
  rw [inScopes?_cons, h, Option.some_or]

/-- The scopes refined by each part of the name of an address's server. -/
def refinedScopes (url : String) (scopes : List String) : List String :=
  scopes.flatMap fun scope => (serverTokens url).map fun token => scope ++ "." ++ token

/-- For a server the first scope decides only if no refined one has a value. -/
theorem getForUrl_of_value? (h : s.value? scope key = some value) (url : String)
    (rest : List String) :
    s.getForUrl env key (some url) (scope :: rest) envNames default? =
      some ((s.inScopes? key (refinedScopes url (scope :: rest))).getD value) := by
  show s.get env key (refinedScopes url (scope :: rest) ++ (scope :: rest)) envNames default? = _
  refine get_of_inScopes? ?_
  rw [inScopes?_append, inScopes?_cons, h, Option.some_or]
  cases s.inScopes? key (refinedScopes url (scope :: rest)) <;> rfl

end Colloquy.Settings
