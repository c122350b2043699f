import TapeMachine.Machine.Tape
import TapeMachine.Text.Grid

/-!
# Dumps

A dump shows a whole machine: a line with its sizes, its head and its state, and then its program
and its registers side by side. What cannot be read is shown as the message of the fault, between
angle brackets.
-/

set_option autoImplicit false

namespace TapeMachine.Machine

/-- What was asked for, or the message of the fault between angle brackets. -/
private def shown {α : Type} (toText : α → String) : Except Fault α → String
  | .ok value => toText value
  | .error fault => "<" ++ fault.message ++ ">"

/-- The entries of the program with their offsets; an arrow marks the current one. -/
def programGrid (machine : Machine) : Text.Grid :=
  { columns := [⟨"Entry", .right⟩, ⟨"Offset", .right⟩, ⟨"Contents", .left⟩]
    rows := (List.range machine.regions.entries).map fun index ↦
      let offset := Offset.ofEntry index
      let mark := if offset = machine.pointer then "* --> " else ""
      [[s!"{mark}{index}"], [toString offset], [shown Entry.text (machine.entry index)]] }

/-- The registers with their names. -/
def registerGrid (machine : Machine) : Text.Grid :=
  { columns := [⟨"Register", .right⟩, ⟨"Name", .left⟩, ⟨"Contents", .left⟩]
    rows := Register.all.map fun register ↦
      let contents := machine.register register
      [[s!"R[{register.val}] ="], [register.name?.getD ""], [toString contents]] }

/-- The text of a dump. -/
def dump (machine : Machine) : String :=
  let head := shown toString machine.head
  let state := match machine.activeState with
    | some state => toString state
    | none => "none"
  let grid : Text.Grid :=
    { columns := [⟨"Program", .left⟩, ⟨"Registers", .left⟩]
      rows := [[machine.programGrid.lines, machine.registerGrid.lines]] }
  s!"Entries: {machine.regions.entries}\tTape: {machine.cellCount} symbols\tHead: {head}\t"
    ++ s!"State: {state}\n" ++ grid.text

end TapeMachine.Machine
