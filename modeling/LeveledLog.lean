import LeveledLog.Identity
import LeveledLog.Session
import LeveledLog.SpinLock
import LeveledLog.Text.Quoted
import LeveledLog.Proofs.Discipline
import LeveledLog.Proofs.Regime
import LeveledLog.Proofs.Peripheral
import LeveledLog.Proofs.Attempt
import LeveledLog.Proofs.Roles
import LeveledLog.Proofs.Journal
import LeveledLog.Proofs.Answers
import LeveledLog.Proofs.MinimumLevel
import LeveledLog.Proofs.ModuleNames
import LeveledLog.Proofs.Ordering
import LeveledLog.Proofs.ExplicitSettings
import LeveledLog.Proofs.LineOrder
import LeveledLog.Proofs.WholeLines
import LeveledLog.Proofs.LineLayout
import LeveledLog.Proofs.Reachable
import LeveledLog.Proofs.Snapshot
import LeveledLog.Proofs.Logging
import LeveledLog.Proofs.GateLaw
import LeveledLog.Proofs.Numerals
import LeveledLog.Proofs.Effects
import LeveledLog.Proofs.PrefixHistory
import LeveledLog.Proofs.LineText
import LeveledLog.Proofs.Nesting
import LeveledLog.Proofs.BoundedSet
import LeveledLog.Proofs.CivilDates
import LeveledLog.Proofs.TimestampReading
import LeveledLog.Proofs.TimestampOrder
import LeveledLog.Proofs.WrittenLines
import LeveledLog.Proofs.TimestampHistory
import LeveledLog.Proofs.SinkPanics
import LeveledLog.Proofs.DecodedNames
import LeveledLog.Proofs.Delivery
import LeveledLog.Proofs.InlineTexts
import LeveledLog.Proofs.TableHistory
import LeveledLog.Proofs.TableTurns
import LeveledLog.Proofs.TableLedger
import LeveledLog.Proofs.TableSteps
import LeveledLog.Proofs.LinearLookups
import LeveledLog.Proofs.OutputCalls
import LeveledLog.Proofs.LastWords
import LeveledLog.Proofs.Decoration
import LeveledLog.Proofs.FacadeRecords
import LeveledLog.Proofs.ByHand
import LeveledLog.Proofs.WordNumerals
import LeveledLog.Proofs.LevelNames
import LeveledLog.Proofs.LockedAdditions
import LeveledLog.Proofs.ContestEnds
import LeveledLog.Proofs.PathNames
