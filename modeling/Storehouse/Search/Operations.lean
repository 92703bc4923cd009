import Storehouse.Exchange.Dialogue
import Storehouse.Search.Command
import Storehouse.Search.Outcome

namespace Storehouse.Search.Index

/-- A filter that does not compile is recorded and ends the dialogue before anything is sent. -/
def compiled (command : Except Filter.Fault (List String)) : Dialogue (List String) :=
  match command with
  | .ok tokens => pure tokens
  | .error e => do
    .note .compileError
    .fail (.filter e)

def page (command : Except Filter.Fault (List String)) : Dialogue Page := do
  let tokens ← compiled command
  let reply ← .ask tokens
  .expect (Page.ofReply reply)

def find (i : Index) (r : Request) : Dialogue (List Hit) := do
  let page ← page (i.findCommand r)
  .note (.searchResults page.hits.length)
  return page.hits

def count (i : Index) (r : Request) : Dialogue UInt64 := do
  let page ← page (i.countCommand r)
  return page.total

/-- Deletes the documents that match and tells how many keys the server removed: the matches are
counted, that many keys are looked up, and the keys found are deleted. -/
def remove (i : Index) (r : Request) : Dialogue UInt64 := do
  let total ← i.count r
  if total = 0 then return 0
  let page ← page (i.keysCommand r total)
  match page.hits.map Hit.key with
  | [] => return 0
  | keys =>
    let reply ← .ask (removeCommand keys)
    .expect reply.count

def aggregate (i : Index) (r : Request) : Dialogue (List (List (String × String))) := do
  let tokens ← compiled (i.aggregateCommand r)
  let reply ← .ask tokens
  .expect (rowsOfReply reply)

end Storehouse.Search.Index
