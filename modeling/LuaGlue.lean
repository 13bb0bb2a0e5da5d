import LuaGlue.Main
import LuaGlue.Text.Utf8
import LuaGlue.Proofs.Grammar.Tree
import LuaGlue.Proofs.Grammar.Unambiguous
import LuaGlue.Proofs.Recognizer.Reading
import LuaGlue.Proofs.Grammar.Reading
import LuaGlue.Proofs.Grammar.Acceptance
import LuaGlue.Proofs.Generate.Limit
import LuaGlue.Proofs.Glue.Symbol
import LuaGlue.Proofs.Translation.Reference
import LuaGlue.Proofs.Generate.Translation
import LuaGlue.Proofs.Token.Layout
import LuaGlue.Proofs.Token.Lossless
import LuaGlue.Proofs.Generate.Append
import LuaGlue.Proofs.Grammar.Plain
import LuaGlue.Proofs.Glue.Lines
import LuaGlue.Proofs.Glue.Scan
import LuaGlue.Proofs.Generate.Correspondence
import LuaGlue.Proofs.Recognizer.Persistence
import LuaGlue.Proofs.Recognizer.Protocol
import LuaGlue.Proofs.Binder.Calls
import LuaGlue.Proofs.Execute.AllOrNothing
import LuaGlue.Proofs.Json.Escaping
import LuaGlue.Proofs.Json.Layout
import LuaGlue.Proofs.Settings.RoundTrip
import LuaGlue.Proofs.Recognizer.Session
import LuaGlue.Proofs.Recognizer.Restart
import LuaGlue.Proofs.Generate.Noninterference
import LuaGlue.Proofs.Json.Value
import LuaGlue.Proofs.Json.Spelling
import LuaGlue.Proofs.Json.Finding
import LuaGlue.Proofs.Settings.Override
import LuaGlue.Proofs.Settings.Document
import LuaGlue.Proofs.Recognizer.Completion
import LuaGlue.Proofs.Recognizer.Coherence
import LuaGlue.Proofs.Grammar.Separation
import LuaGlue.Proofs.Translation.Marshaling
import LuaGlue.Proofs.Glue.Slots
import LuaGlue.Proofs.Registry.History
import LuaGlue.Proofs.Generate.Constructors
import LuaGlue.Proofs.Binder.Records
import LuaGlue.Proofs.Generate.Log
import LuaGlue.Proofs.Recognizer.Pieces
import LuaGlue.Proofs.AliasTable.History
import LuaGlue.Proofs.CommandLine.Part
import LuaGlue.Proofs.CommandLine.Spelling
import LuaGlue.Proofs.Binder.History
