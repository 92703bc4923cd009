import Storehouse.Filter.Query

namespace Storehouse.Filter

/-- Filters collected one after the other, and how they are to be joined. -/
structure Draft where
  nodes : List Filter
  combinator : Combinator

namespace Draft

def empty : Draft := ⟨[], .and⟩

def any (d : Draft) : Draft := { d with combinator := .or }

def push (d : Draft) (f : Filter) : Draft := { d with nodes := d.nodes ++ [f] }

def pushCondition (d : Draft) (c : Condition) : Draft := d.push (.leaf c)

/-- A single filter stands for itself; any other number of them makes a group. -/
def build (d : Draft) : Filter :=
  match d.nodes with
  | [f] => f
  | nodes => .group d.combinator nodes

end Draft

/-- A filter that is ready, one to be built, or a wrapper around either. -/
inductive Clause
  | ready (f : Filter)
  | draft (d : Draft)
  | resolved (inner : Clause)

def Clause.resolve : Clause → Filter
  | ready f => f
  | draft d => d.build
  | resolved inner => inner.resolve

/-- The query of an optional clause; without a clause every document matches. -/
def Clause.query : Option Clause → Except Fault String
  | none => .ok matchAll
  | some c => c.resolve.query

end Storehouse.Filter
