import CSharpGen.Main
import CSharpGen.Proofs.Writer.Tree
import CSharpGen.Proofs.Writer.Written
import CSharpGen.Proofs.Writer.Run
import CSharpGen.Proofs.Text.LineEnds
import CSharpGen.Proofs.Writer.Rendering
import CSharpGen.Proofs.Writer.Splicing
import CSharpGen.Proofs.Writer.Closing
import CSharpGen.Proofs.Text.Braces
import CSharpGen.Proofs.Writer.OwnText
import CSharpGen.Proofs.Writer.Braces
import CSharpGen.Proofs.Writer.Texts
import CSharpGen.Proofs.Writer.WholeLines
import CSharpGen.Proofs.Writer.BraceLines
import CSharpGen.Proofs.Writer.Filling
import CSharpGen.Proofs.Writer.Schedule
import CSharpGen.Proofs.Declaration.MissingType
import CSharpGen.Proofs.Edit.Constants
import CSharpGen.Proofs.Text.StableSort
import CSharpGen.Proofs.Script.Sections
import CSharpGen.Proofs.Declaration.Members
import CSharpGen.Proofs.Text.OneLine
import CSharpGen.Proofs.Text.Cuts
import CSharpGen.Proofs.Text.SolidChars
import CSharpGen.Proofs.Text.TrailingBlanks
import CSharpGen.Proofs.Writer.TrailingBlanks
import CSharpGen.Proofs.Declaration.DerivedNames
import CSharpGen.Proofs.Script.Layout
import CSharpGen.Proofs.Script.Lays
import CSharpGen.Proofs.Script.Neat
import CSharpGen.Proofs.Script.Bodies
import CSharpGen.Proofs.Script.Passage
import CSharpGen.Proofs.Declaration.Wording
import CSharpGen.Proofs.Declaration.Lines
import CSharpGen.Proofs.Declaration.Outer
import CSharpGen.Proofs.Declaration.Paragraphs
import CSharpGen.Proofs.Declaration.TypeParagraphs
import CSharpGen.Proofs.File.BlankLines
import CSharpGen.Proofs.File.Namespace
import CSharpGen.Proofs.Script.Keeps
import CSharpGen.Proofs.File.Head
import CSharpGen.Proofs.File.Directives
import CSharpGen.Proofs.Text.Ascending
import CSharpGen.Proofs.Edit.Calls
import CSharpGen.Proofs.Edit.Shift
import CSharpGen.Proofs.Edit.Rearranged
import CSharpGen.Proofs.Edit.Directives
import CSharpGen.Proofs.File.ImportsAgain
import CSharpGen.Proofs.File.AttributeSpellings
import CSharpGen.Proofs.Writer.Guards
import CSharpGen.Proofs.Writer.Follows
import CSharpGen.Proofs.Writer.Inline
import CSharpGen.Proofs.Manifest.Outcome
import CSharpGen.Proofs.Manifest.Built
import CSharpGen.Proofs.Manifest.Consistency
import CSharpGen.Proofs.Manifest.Comments
import CSharpGen.Proofs.Edit.Places
import CSharpGen.Proofs.Edit.Copies
import CSharpGen.Proofs.Script.Statements
import CSharpGen.Proofs.Declaration.Reordered
import CSharpGen.Proofs.Script.Outline
import CSharpGen.Proofs.Declaration.Outlines
import CSharpGen.Proofs.Manifest.Indentation
import CSharpGen.Proofs.Text.LeadingBraces
import CSharpGen.Proofs.Writer.LeadingBraces
import CSharpGen.Proofs.Writer.Growth
import CSharpGen.Proofs.Writer.LateFilling
import CSharpGen.Proofs.Writer.Release
import CSharpGen.Proofs.Script.Separators
import CSharpGen.Proofs.Script.Places
import CSharpGen.Proofs.Script.Switches
import CSharpGen.Proofs.Edit.Forwarding
import CSharpGen.Proofs.Edit.ParameterLists
import CSharpGen.Proofs.File.TypeTexts
import CSharpGen.Proofs.Edit.Shelves
import CSharpGen.Proofs.Manifest.Declared
import CSharpGen.Proofs.Declaration.CommentLines
import CSharpGen.Proofs.Declaration.BracketedGroups
import CSharpGen.Proofs.Declaration.GenericLists
import CSharpGen.Proofs.Declaration.CommentHistory
import CSharpGen.Proofs.Declaration.Refusals
import CSharpGen.Proofs.Declaration.EnumValues
import CSharpGen.Proofs.Script.DrawnTexts
import CSharpGen.Proofs.File.ClassTexts
import CSharpGen.Proofs.Manifest.PropertyOrder
