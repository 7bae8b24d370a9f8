import TraceViewer.Session.State

/-!
Starting a session: the saved parsers are registered, and a default one where there is none.
-/

namespace TraceViewer

/-- Parsers, where they are saved, and what went wrong in preparing them. -/
structure ParserSetup where
  registry : Registry
  store : ParserStore
  files : Files
  notice : Option Notice := none

def storeNotice (fault : TransferFault) : Notice := .error ("Parser store: " ++ fault.message)

namespace ParserSetup

/-- Saves the first parser of a registry. -/
def saveFirst (p : ParserSetup) (now : Int) : ParserSetup :=
  match p.registry.parsers with
  | [] => p
  | first :: _ =>
    match p.store.upsert first.name first.source p.files now with
    | (.ok _, store, files) => { p with store, files }
    | (.error fault, store, files) => { p with store, files, notice := some (storeNotice fault) }

/-- Registers the parsers of a store, and a default one where none can be registered. It is saved
unless the store could not be read. -/
def start (path : Option String) (limits : Snippet.Limits) (files : Files) (now : Int) :
    ParserSetup :=
  let (store, notice) : ParserStore × Option Notice :=
    match ParserStore.load path files with
    | .ok store => (store, none)
    | .error fault => ({ path }, some (storeNotice fault))
  let (_, registry) := ({ limits } : Registry).registerAll store.sources
  let (seeded, registry) := registry.seed
  let setup : ParserSetup := { registry, store, files, notice }
  if seeded && notice.isNone then setup.saveFirst now else setup

end ParserSetup

/-- A session before its first load. -/
def Session.start (setup : ParserSetup) (sources : List TraceSource) (mode : ViewMode)
    (exportFolder : String) (clock : Int) : Session :=
  { registry := setup.registry
    store := setup.store
    files := setup.files
    notice := setup.notice
    summaries := List.replicate sources.length none
    sources, mode, exportFolder, clock }

end TraceViewer
