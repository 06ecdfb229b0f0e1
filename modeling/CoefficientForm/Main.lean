-- SUMMARY: The program, with nothing logged.
import CoefficientForm.Command.Run

open CoefficientForm

def main (args : List String) : IO UInt32 := do
  match Command.ofArguments? args with
  | some command =>
    let output := command.run
    (← IO.getStdout).putStr output.stdout
    (← IO.getStderr).putStr output.report
    return output.exitCode
  | none =>
    (← IO.getStderr).putStr "error: the arguments give no command\n"
    return Command.misuseCode
