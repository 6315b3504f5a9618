import Notebook.Main
import Notebook.Session.Run
import Notebook.Proofs.Binding
import Notebook.Proofs.Outline
import Notebook.Proofs.Meaning
import Notebook.Proofs.Expansion.Equations
import Notebook.Proofs.Expansion.Sound
import Notebook.Proofs.Expansion.Total
import Notebook.Proofs.Store.Titles
import Notebook.Proofs.Reads
import Notebook.Proofs.Agreement
import Notebook.Proofs.Live.Refresh
import Notebook.Proofs.Store.Update
import Notebook.Proofs.Live.Upkeep
import Notebook.Proofs.Arguments
import Notebook.Proofs.Store.Links
import Notebook.Proofs.Store.Announce
import Notebook.Proofs.Store.Edits
import Notebook.Proofs.Bus.Reaction
import Notebook.Proofs.Bus.Dispatch
import Notebook.Proofs.Bus.Registry
import Notebook.Proofs.Expansion.Depth
import Notebook.Proofs.Store.Parsing
import Notebook.Proofs.Live.Chains
import Notebook.Proofs.Live.Growth
import Notebook.Proofs.Live.Locality
import Notebook.Proofs.Frames
import Notebook.Proofs.Live.Frames
import Notebook.Proofs.Store.Searches
import Notebook.Proofs.Store.Queries
import Notebook.Proofs.Store.Pending
import Notebook.Proofs.Bus.Windows
import Notebook.Proofs.Numbering
import Notebook.Proofs.Forest
import Notebook.Proofs.Expansion.Drawn
import Notebook.Proofs.Live.Handles
import Notebook.Proofs.Live.Identity
import Notebook.Proofs.Markup.Slices
import Notebook.Proofs.Expansion.Indifference
import Notebook.Proofs.Expansion.Containment
import Notebook.Proofs.Live.Containment
import Notebook.Proofs.Markup.Enclosures
import Notebook.Proofs.Markup.Canonical
import Notebook.Proofs.Markup.Closing
import Notebook.Proofs.Expansion.Markers
import Notebook.Proofs.Live.Markers
import Notebook.Proofs.Opening
import Notebook.Proofs.Live.Ticks
import Notebook.Proofs.Markup.Tokens
import Notebook.Proofs.Tags
import Notebook.Proofs.Placement
import Notebook.Proofs.Store.Commuting
import Notebook.Proofs.Placeholder
import Notebook.Proofs.Stamp
import Notebook.Proofs.Live.Tallies
