import LineCalc.Command.Arguments
import LineCalc.Command.Program
import LineCalc.Json.Layout
import LineCalc.Settings.Yaml

/-! Ways to write JSON, to read settings, to split arguments and to colour texts, with which the
    program can be run. -/
namespace LineCalc.Command

instance : Json.Writer where
  compact := Json.compact
  indented := Json.pretty 0

instance : Settings.Reader where
  read := Settings.readYaml

def releaseNumber : Text := "0.4.0".toList

def Stop.notice : Stop → Text
  | .usage | .help => "Usage: noodle [OPTIONS] <COMMAND>".toList
  | .version .root => Scope.root.name ++ ' ' :: releaseNumber
  | .version scope => Scope.root.name ++ '-' :: scope.name ++ ' ' :: releaseNumber

instance : Splitter where
  parse := parse
  notice := Stop.notice

def Ink.start : Ink → Text
  | .success => "\x1b[32m\x1b[1m".toList
  | .failure => "\x1b[31m".toList
  | .heading => "\x1b[36m\x1b[1m".toList

def inkEnd : Text := "\x1b[0m".toList

theorem feed_not_mem_start (ink : Ink) : '\n' ∉ ink.start := by cases ink <;> decide

instance : Painter where
  paint ink t := ink.start ++ t ++ inkEnd
  single ink t single := by
    have noEnd : '\n' ∉ inkEnd := by decide
    simp only [List.mem_append, not_or]
    exact ⟨⟨feed_not_mem_start ink, single⟩, noEnd⟩

end LineCalc.Command
