import LibKprintf.Foundation.History
import LibKprintf.Queue.Guarantees
import LibKprintf.Queue.Contents
import LibKprintf.Stop.Unload
import LibKprintf.Stop.Handshake
import LibKprintf.Stop.Hook
import LibKprintf.Handlers.Quiescence
import LibKprintf.Handlers.CleanRestart
import LibKprintf.Handlers.Bounds
import LibKprintf.Start.FailedStart
import LibKprintf.Screen.Erase
import LibKprintf.Screen.Initex
import LibKprintf.Queue.Removal
import LibKprintf.Start.Detection
import LibKprintf.Screen.Format
import LibKprintf.Screen.Stream
import LibKprintf.Screen.Cells
import LibKprintf.Log.Flush
import LibKprintf.Exit.Cycles
import LibKprintf.Handlers.Linearization
import LibKprintf.Output.Stdout
import LibKprintf.Output.Liveness
import LibKprintf.Screen.Console
import LibKprintf.Output.Fairness
import LibKprintf.Output.Dispatch
import LibKprintf.Screen.Modes
import LibKprintf.Output.Shutdown
import LibKprintf.Output.Waiting
import LibKprintf.Start.Sessions
