import BlockStudio.Language.Basic
import BlockStudio.Collection.SortedSet
import BlockStudio.Text.Numeral

/-!
The rules that a genus declares by its directives. A socket or plug that no directive names has no rule
and links with anything.
-/

namespace BlockStudio

inductive Directive where
  | socketAllow (label type : String)
  | socketExclude (label type : String)
  | plugAllow (type : String)
  | plugExclude (type : String)
deriving Repr, DecidableEq

structure DirectiveError where
  genus : String
  key : String
deriving Repr, DecidableEq

namespace Directive

def rule? (key : String) : Option String := do
  let (rule, index) ← Text.cutLast '-' key
  let _ ← Text.count? index
  return rule

def socketRule (make : String → String → Directive) (genus key value : String) :
    Except DirectiveError (Option Directive) :=
  match Text.cut ":" value with
  | some (label, type) => .ok (some (make label (Text.trim type)))
  | none => .error { genus, key }

def read (genus : String) (entry : String × String) : Except DirectiveError (Option Directive) :=
  match rule? entry.1 with
  | some "socket-allow" => socketRule socketAllow genus entry.1 entry.2
  | some "socket-exclude" => socketRule socketExclude genus entry.1 entry.2
  | some "plug-type" => .ok (some (plugAllow (Text.trim entry.2)))
  | some "type-exclude" => .ok (some (plugExclude (Text.trim entry.2)))
  | _ => .ok none

def readAll (g : Genus) : Except DirectiveError (List Directive) := do
  let ds ← g.directives.entries.mapM (read g.name)
  return ds.filterMap id

end Directive

structure ConnectorRule where
  allow : Option (SortedSet String) := none
  exclude : Option (SortedSet String) := none
deriving Repr, DecidableEq, Inhabited

namespace ConnectorRule

def addAllow (r : ConnectorRule) (type : String) : ConnectorRule :=
  let set := r.allow.getD .empty
  { r with allow := some (if type = "" then set else set.insert type) }

def addExclude (r : ConnectorRule) (type : String) : ConnectorRule :=
  { r with exclude := some ((r.exclude.getD .empty).insert type) }

/-- Types allowed count up from none, exclusions down from all known types, and both together meet. -/
def types (known : SortedSet String) (r : ConnectorRule) : SortedSet String :=
  match r.allow, r.exclude with
  | some allow, some exclude => allow.filter fun t => t ∈ known.filter (· ∉ exclude)
  | some allow, none => allow
  | none, some exclude => known.filter (· ∉ exclude)
  | none, none => .empty

end ConnectorRule

structure GenusRules where
  sockets : NameMap ConnectorRule := .empty
  plug : Option ConnectorRule := none
deriving Repr, DecidableEq, Inhabited

namespace GenusRules

def onSocket (r : GenusRules) (label : String) (f : ConnectorRule → ConnectorRule) : GenusRules :=
  { r with sockets := r.sockets.put label (f ((r.sockets.get? label).getD {})) }

def onPlug (r : GenusRules) (f : ConnectorRule → ConnectorRule) : GenusRules :=
  { r with plug := some (f (r.plug.getD {})) }

def add (r : GenusRules) : Directive → GenusRules
  | .socketAllow label type => r.onSocket label (·.addAllow type)
  | .socketExclude label type => r.onSocket label (·.addExclude type)
  | .plugAllow type => r.onPlug (·.addAllow type)
  | .plugExclude type => r.onPlug (·.addExclude type)

def ofDirectives (ds : List Directive) : GenusRules := ds.foldl add {}

end GenusRules

end BlockStudio
