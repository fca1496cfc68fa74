/-
What the program tells of itself: its version, and how it is called.
-/
import MemsProbe.Command
import MemsProbe.Text.Path

namespace MemsProbe.Usage

def version : String := "0.1.0"

/-- The name by which the program was called, or its own if it has none. -/
def programName (calledAs : String) : String :=
  (Path.fileName? calledAs).getD "readmems"

/-- The line that lists a command. -/
def commandLine (c : Command) : String :=
  "\t" ++ c.name ++ "\n"

/-- How a program of that name is called. -/
def text (program : String) : String :=
  "readmems v" ++ version ++ "\n" ++
  "Diagnostic utility using ROSCO protocol for MEMS 1.6 systems\n" ++
  "Usage: " ++ program ++ " <serial device> <command> [read-loop-count]\n" ++
  " where <command> is one of the following:\n" ++
  String.join (Command.all.map commandLine) ++
  " and [read-loop-count] is either a number or 'inf' to read forever.\n"

end MemsProbe.Usage
