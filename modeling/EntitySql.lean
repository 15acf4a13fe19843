import EntitySql.Conformance
import EntitySql.Proofs.FreshNames
import EntitySql.Proofs.Layout
import EntitySql.Proofs.Rendering
import EntitySql.Proofs.StatementPlan
import EntitySql.Proofs.StatementRuns
import EntitySql.Proofs.Batch
import EntitySql.Proofs.Sql.Expression
import EntitySql.Proofs.Sql.Lexer
import EntitySql.Proofs.Meaning
import EntitySql.Proofs.ReadBack
import EntitySql.Proofs.Negation
import EntitySql.Proofs.CatalogGrowth
import EntitySql.Proofs.KeyedRuns
import EntitySql.Proofs.CatalogRuns
import EntitySql.Proofs.Refusals
import EntitySql.Proofs.Sending
import EntitySql.Proofs.SingleExchange
import EntitySql.Proofs.SeveralSelects
import EntitySql.Proofs.Insertion
import EntitySql.Proofs.SessionRuns
import EntitySql.Proofs.BuiltMappings
import EntitySql.Proofs.PropertyParameters
import EntitySql.Proofs.Sql.Command
import EntitySql.Proofs.KeyedLayout
import EntitySql.Proofs.KeyedReading
import EntitySql.Proofs.KeyedCommands
import EntitySql.Proofs.Windows
import EntitySql.Proofs.WindowedSelects
import EntitySql.Proofs.QuotedNames
import EntitySql.Proofs.RelatedRuns
import EntitySql.Proofs.OperandShapes
import EntitySql.Proofs.AlikeCatalogs
import EntitySql.Proofs.SoundCatalogs
import EntitySql.Proofs.CatalogHistory
import EntitySql.Proofs.GuardedDeletions
import EntitySql.Proofs.RowsReadBack
import EntitySql.Proofs.KeysOfEntities
import EntitySql.Proofs.ReturnedKeys
import EntitySql.Proofs.RowStatements
import EntitySql.Proofs.SharedConditions
import EntitySql.Proofs.SeveralAnswers
import EntitySql.Proofs.HandedOutSets
import EntitySql.Proofs.IdentifierText
import EntitySql.Proofs.IdentifiersAsText
import EntitySql.Proofs.InsertionEffects
import EntitySql.Proofs.FirstFaults
import EntitySql.Proofs.EmptyMembers
import EntitySql.Proofs.FilledLists
import EntitySql.Proofs.DrawnKeys
import EntitySql.Proofs.OppositeTexts
import EntitySql.Proofs.AcceptedKeys
import EntitySql.Proofs.Conversions
import EntitySql.Proofs.BoundValues
import EntitySql.Proofs.ExactIntegers
import EntitySql.Proofs.AnsweredIntegers
import EntitySql.Proofs.ConvertedIntegers
import EntitySql.Proofs.ParameterHistories
import EntitySql.Proofs.MappingSteps
import EntitySql.Proofs.JoinedTexts
import EntitySql.Proofs.ConventionalKeys
import EntitySql.Proofs.AnswerStreams
import EntitySql.Proofs.ShortRows
import EntitySql.Proofs.ShownStatements
