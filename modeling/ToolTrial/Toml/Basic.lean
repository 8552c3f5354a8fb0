/-!
Tables of settings.  A table is built statement by statement: headers open tables, key paths fill
them, and nothing that has been defined is defined again.
-/

set_option autoImplicit false
set_option relaxedAutoImplicit false

namespace ToolTrial.Toml

/-- How a table came to be, which decides what may still be added to it. -/
inductive Origin
  /-- Named on the way to a table with a header of its own. -/
  | implied
  /-- Opened by a header. -/
  | header
  /-- Named on the way to a value by a key path. -/
  | keyPath
  /-- Written in braces, and complete. -/
  | inline
deriving DecidableEq

/-- A value.  Numbers with a fraction and dates are known only to be well formed. -/
inductive Value
  | text (s : String)
  | boolean (b : Bool)
  | integer (n : Int)
  | float
  | date
  | array (items : List Value)
  | table (origin : Origin) (entries : List (String × Value))
  /-- Tables opened one after the other by the same header, the last one first. -/
  | tables (elements : List (List (String × Value)))

abbrev Entries := List (String × Value)

/-- Entries with one replaced, or added at the end. -/
def Entries.set (key : String) (value : Value) : Entries → Entries
  | [] => [(key, value)]
  | (k, v) :: rest => if k = key then (k, value) :: rest else (k, v) :: Entries.set key value rest

/-- The entries after `change` is applied to the table that a path of headers leads to.  Tables on
the way are made where there are none; of tables with the same header the last one is meant. -/
def under (change : Entries → Option Entries) : List String → Entries → Option Entries
  | [], entries => change entries
  | key :: path, entries =>
    match entries.lookup key with
    | none => do return entries.set key (.table .implied (← under change path []))
    | some (.table .inline _) => none
    | some (.table origin inner) => do
      return entries.set key (.table origin (← under change path inner))
    | some (.tables (last :: others)) => do
      return entries.set key (.tables ((← under change path last) :: others))
    | some _ => none

def openTable (key : String) (entries : Entries) : Option Entries :=
  match entries.lookup key with
  | none => some (entries.set key (.table .header []))
  | some (.table .implied inner) => some (entries.set key (.table .header inner))
  | some _ => none

def openElement (key : String) (entries : Entries) : Option Entries :=
  match entries.lookup key with
  | none => some (entries.set key (.tables [[]]))
  | some (.tables elements) => some (entries.set key (.tables ([] :: elements)))
  | some _ => none

def assign (value : Value) : List String → Entries → Option Entries
  | [], _ => none
  | [key], entries =>
    match entries.lookup key with
    | none => some (entries.set key value)
    | some _ => none
  | key :: path, entries =>
    match entries.lookup key with
    | none => do return entries.set key (.table .keyPath (← assign value path []))
    | some (.table .keyPath inner) => do
      return entries.set key (.table .keyPath (← assign value path inner))
    | some (.table .implied inner) => do
      return entries.set key (.table .implied (← assign value path inner))
    | some _ => none

end ToolTrial.Toml
