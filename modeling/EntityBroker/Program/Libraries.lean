import EntityBroker.Program.Arguments.Command
import EntityBroker.Program.Toml.Section
import EntityBroker.Program.Trace.Filter

/-!
# What the program is built with

`CommandLine.run` takes the readers of arguments, trace filters and settings files as given. These
are the ones of the program.
-/

namespace EntityBroker.CommandLine

def libraries : Libraries := ⟨readArguments, readFilter, Toml.readSection⟩

end EntityBroker.CommandLine
