import Gazette.Json.Decoder
import Gazette.Node.Basic

/-!
# Entities

The names of channels, roles and users, and the images of emojis. A message knows them by id only;
a lookup may find one, miss it or fail, and what misses or fails is the same to all who ask.
-/

namespace Gazette

structure LookupFault where
  kind : String
  id : String
  reason : String
  deriving Repr, DecidableEq

namespace LookupFault

def message (fault : LookupFault) : String :=
  "lookup of " ++ fault.kind ++ " " ++ fault.id ++ " failed: " ++ fault.reason

end LookupFault

inductive Answer where
  | found (value : String)
  | missing
  | failed (fault : LookupFault)
  deriving Repr, DecidableEq

namespace Answer

def value? : Answer → Option String
  | found value => some value
  | missing | failed _ => none

end Answer

structure Resolver where
  channel : String → Answer
  role : String → Answer
  user : String → Answer
  emoji : String → Answer

namespace Resolver

def name? (resolver : Resolver) (reference : Reference) (id : String) : Option String :=
  match reference with
  | .channel => (resolver.channel id).value?
  | .role => (resolver.role id).value?
  | .user => (resolver.user id).value?

def image? (resolver : Resolver) (id : String) : Option String := (resolver.emoji id).value?

end Resolver

structure Entities where
  channels : Table String
  roles : Table String
  users : Table String
  emojis : Table String
  deriving Repr, DecidableEq

namespace Entities

def empty : Entities := ⟨[], [], [], []⟩

def find (entries : Table String) (id : String) : Answer :=
  match entries.lookup id with
  | some value => .found value
  | none => .missing

def resolver (entities : Entities) : Resolver where
  channel := find entities.channels
  role := find entities.roles
  user := find entities.users
  emoji := find entities.emojis

open Json Json.Decoder in
def decoder : Decoder Entities :=
  record "tables of entities" empty
    [.defaulted "channels" (table text) fun channels entities => { entities with channels },
      .defaulted "roles" (table text) fun roles entities => { entities with roles },
      .defaulted "users" (table text) fun users entities => { entities with users },
      .defaulted "emojis" (table text) fun emojis entities => { entities with emojis }]

end Entities

end Gazette
