import Storehouse.Address
import Storehouse.Address.Parts
import Storehouse.Backoff
import Storehouse.Cache
import Storehouse.Codec
import Storehouse.Collection
import Storehouse.Double.Layout
import Storehouse.Double.Nearest
import Storehouse.Double.Numeral
import Storehouse.Double.Parts
import Storehouse.Double.Shortest
import Storehouse.Exchange.Dialogue
import Storehouse.Exchange.Fault
import Storehouse.Exchange.Keyed
import Storehouse.Exchange.Measure
import Storehouse.Exchange.Script
import Storehouse.Filter.Basic
import Storehouse.Filter.Clause
import Storehouse.Filter.Json
import Storehouse.Filter.Display
import Storehouse.Filter.Fault
import Storehouse.Filter.Query
import Storehouse.Filter.Record
import Storehouse.Json.Basic
import Storehouse.Json.Lexeme
import Storehouse.Json.Reader
import Storehouse.Json.Record
import Storehouse.Json.Source
import Storehouse.Json.Writer
import Storehouse.Link
import Storehouse.Named
import Storehouse.Proofs.Filter.Leaves
import Storehouse.Proofs.Query.Lexeme
import Storehouse.Reply.Basic
import Storehouse.Reply.Convert
import Storehouse.Reply.Display
import Storehouse.Reply.Fields
import Storehouse.Search.Command
import Storehouse.Search.Operations
import Storehouse.Search.Outcome
import Storehouse.Search.Request
import Storehouse.Settings
import Storehouse.Basic
import Storehouse.Text.Quoted
import Storehouse.Proofs.Query.Written
import Storehouse.Proofs.Query.Normal
import Storehouse.Proofs.Query.Unambiguous
import Storehouse.Proofs.Query.Formula
import Storehouse.Proofs.Query.Meaning
import Storehouse.Proofs.Query.Independent
import Storehouse.Proofs.Query.Grouping
import Storehouse.Proofs.Except
import Storehouse.Proofs.Filter.Decoded
import Storehouse.Proofs.Double.Finite
import Storehouse.Proofs.Filter.RoundTrip
import Storehouse.Proofs.Exchange.Turns
import Storehouse.Proofs.Search.Removal
import Storehouse.Proofs.Search.Database
import Storehouse.Proofs.Search.Sharing
import Storehouse.Proofs.Cache.Cursor
import Storehouse.Proofs.Cache.Scope
import Storehouse.Proofs.Search.Part
import Storehouse.Proofs.Search.Commands
import Storehouse.Proofs.Reply.Fields
import Storehouse.Proofs.Search.Reading
import Storehouse.Proofs.Query.Compiled
import Storehouse.Proofs.Search.Entries
import Storehouse.Proofs.Search.Agreement
import Storehouse.Proofs.Exchange.History
import Storehouse.Proofs.Exchange.Requests
import Storehouse.Proofs.Exchange.Sessions
import Storehouse.Proofs.Cache.Contents
import Storehouse.Proofs.Filter.Parts
import Storehouse.Proofs.Text.Order
import Storehouse.Proofs.Exchange.Endings
import Storehouse.Proofs.Reply.FieldLists
import Storehouse.Proofs.Reply.Scores
import Storehouse.Proofs.Filter.Wrappers
import Storehouse.Proofs.Cache.Rounds
import Storehouse.Proofs.Exchange.Accounts
import Storehouse.Proofs.Backoff.Attempts
import Storehouse.Proofs.Backoff.Delays
import Storehouse.Proofs.Address.Percent
import Storehouse.Proofs.Text.Numeral
import Storehouse.Proofs.Address.Sections
import Storehouse.Proofs.Settings.Variables
import Storehouse.Proofs.Filter.Drafts
import Storehouse.Proofs.Cache.Totals
import Storehouse.Proofs.Double.Words
import Storehouse.Proofs.Reply.Counts
import Storehouse.Proofs.Exchange.Counts
import Storehouse.Proofs.Double.Rounding
import Storehouse.Proofs.Double.Unpacked
import Storehouse.Proofs.Double.Mantissas
import Storehouse.Proofs.Double.Arithmetic
import Storehouse.Proofs.Exchange.Seconds
import Storehouse.Proofs.Backoff.Products
import Storehouse.Proofs.Backoff.Stuck
import Storehouse.Proofs.Search.Details
