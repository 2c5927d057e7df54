import EditorFlags.Main
import EditorFlags.Project.Session
import EditorFlags.Proofs.Path
import EditorFlags.Proofs.Text.Lossy
import EditorFlags.Proofs.Path.Resolve
import EditorFlags.Proofs.Clangd.Entry
import EditorFlags.Proofs.Clangd.Include
import EditorFlags.Proofs.FlagFile
import EditorFlags.Proofs.Clangd.Document
import EditorFlags.Proofs.Clangd.Interrupted
import EditorFlags.Proofs.Project.Snapshot
import EditorFlags.Proofs.CommandLine.Accepted
import EditorFlags.Proofs.FileTree
import EditorFlags.Proofs.CommandLine.Printing
import EditorFlags.Proofs.Program
import EditorFlags.Proofs.Rerun
import EditorFlags.Proofs.FileTree.Linkless
import EditorFlags.Proofs.Path.Normal
import EditorFlags.Proofs.Project.Operand
import EditorFlags.Proofs.Project.Lines
import EditorFlags.Proofs.FlagFile.Stream
import EditorFlags.Proofs.Undropped
import EditorFlags.Proofs.Settings.Request
import EditorFlags.Proofs.Settings.Lossless
import EditorFlags.Proofs.Settings.Agreement
import EditorFlags.Proofs.Settings.Reread
import EditorFlags.Proofs.Settings.Truncated
import EditorFlags.Proofs.Directory
import EditorFlags.Proofs.CommandLine.Spelled
import EditorFlags.Proofs.Diagnostics
import EditorFlags.Proofs.Clangd.Warnings
import EditorFlags.Proofs.Clangd.Capacity
import EditorFlags.Proofs.Path.Composed
import EditorFlags.Proofs.FlagFile.Reading
import EditorFlags.Proofs.FlagFile.Divided
import EditorFlags.Proofs.Path.Mended
import EditorFlags.Proofs.Clangd.Mended
