import AtmCore.KeyedLists
import AtmCore.MailTables
import Mathlib.Data.Prod.Lex
import Mathlib.Data.String.Basic

/-! The durable roster. A save replaces the roster of one team in one transaction, after a check that the names the
members go by, the alias or else the name of the agent, are taken by nobody else in the database. The proposed names
are computed from the members, those of the database by a query over the stored metadata. -/

namespace AtmCore

open Rows KeyedLists

/-- The fields of a roster member that a modelled function reads. -/
structure RosterMember where
  teamName : TeamName
  agentName : AgentName
  metadataJson : List (String × Value)

structure RosterSnapshot where
  teamName : TeamName
  members : List RosterMember

structure RosterUniqueName where
  teamName : TeamName
  agentName : AgentName
  uniqueName : String
  deriving DecidableEq

def aliasMetadataKey : String := "alias"

/-- The alias of a member as it is read: a text, trimmed. -/
def trimmedAlias (metadata : Option Value) : Option String := (metadata.bind Value.asStr).map trim

def effectiveName (metadata : Option Value) (agentName : AgentName) : String :=
  ((trimmedAlias metadata).filter (fun name => !name.isEmpty)).getD agentName.val

def RosterUniqueName.fromMember (member : RosterMember) : RosterUniqueName where
  teamName := member.teamName
  agentName := member.agentName
  uniqueName := effectiveName (Value.lookup member.metadataJson aliasMetadataKey) member.agentName

/-- `roster_unique_name_collisions`: every entry that shares its name, by name, team and agent. -/
def rosterUniqueNameCollisions (names : List RosterUniqueName) : List RosterUniqueName :=
  repeatedRuns RosterUniqueName.uniqueName (names.insertionSort (fun left right =>
    toLex (left.uniqueName, toLex (left.teamName.val, left.agentName.val)) ≤
      toLex (right.uniqueName, toLex (right.teamName.val, right.agentName.val))))

/-- `roster_write_delta`: the proposed names that are not the persisted ones. -/
def rosterWriteDelta (persisted proposed : List RosterUniqueName) : List RosterUniqueName :=
  proposed.filter (fun entry =>
    (persisted.find? (fun known => decide (known.teamName = entry.teamName) &&
      decide (known.agentName = entry.agentName))).all
      (fun known => decide (known.uniqueName ≠ entry.uniqueName)))

def rosterUniqueNameCollisionError (collisions : List RosterUniqueName) : AtmError :=
  let names := ((collisions.map RosterUniqueName.uniqueName).dedup).insertionSort (· ≤ ·)
  let owners (name : String) := (collisions.filter (fun entry => decide (entry.uniqueName = name))).map
    (fun entry => s!"({entry.teamName.val}, {entry.agentName.val})")
  let details := "; ".intercalate (names.map (fun name => s!"`{name}`: " ++ ", ".intercalate (owners name)))
  .validation s!"roster unique-name collision(s): {details}; choose a distinct --alias for one conflicting member"

section Store

-- the text SQLite makes of a JSON value that is neither null nor a string
variable (otherText : Value → String)

/-- `TRIM` of SQLite, which takes away spaces only. -/
def trimSpaces (text : String) : String :=
  String.ofList ((text.toList.dropWhile (· == ' ')).reverse.dropWhile (· == ' ')).reverse

/-- What `json_extract` gives for the alias, as a text; null gives none. -/
def extractedText : Option Value → Option String
  | none | some .null => none
  | some (.string text) => some text
  | some value => some (otherText value)

/-- `COALESCE(NULLIF(TRIM(json_extract(metadata_json, '$.alias')), ''), agent_name)`. -/
def storedUniqueName (metadata : Value) (agentName : AgentName) : String :=
  (((extractedText otherText (metadata.get aliasMetadataKey)).map trimSpaces).filter (fun name => !name.isEmpty)).getD
    agentName.val

/-- One row of the query; the text of `metadata_json` need not be JSON. -/
def loadUniqueName (row : RosterRow) : Except AtmError RosterUniqueName :=
  match row.metadata with
  | some metadata => .ok ⟨row.member.1, row.member.2, storedUniqueName otherText metadata row.member.2⟩
  | none => .error (sqliteError "failed to decode database-wide roster unique-name row" (.conversion "metadata_json"))

def rosterRowOrder (left right : RosterRow) : Prop :=
  toLex (left.member.1.val, left.member.2.val) ≤ toLex (right.member.1.val, right.member.2.val)

instance : DecidableRel rosterRowOrder := fun left right =>
  inferInstanceAs (Decidable (toLex (left.member.1.val, left.member.2.val) ≤
    toLex (right.member.1.val, right.member.2.val)))

def loadUniqueNames (durable : Table RosterRow.member) : Except AtmError (List RosterUniqueName) :=
  (durable.rows.insertionSort rosterRowOrder).mapM (loadUniqueName otherText)

/-- The check inside the transaction of a save. -/
def enforceRosterUniqueNames (roster : RosterSnapshot) (durable : Table RosterRow.member) : Except AtmError Unit := do
  let names ← loadUniqueNames otherText durable
  let proposedNames := roster.members.map RosterUniqueName.fromMember
  if ¬ (proposedNames.map (fun entry => (entry.teamName, entry.agentName))).Nodup then
    let collisions := rosterUniqueNameCollisions proposedNames
    if !collisions.isEmpty then .error (rosterUniqueNameCollisionError collisions)
    else
      .error (.validation (s!"roster-store replace rejected team {roster.teamName.val} because the proposed roster " ++
      "contains the same member more than once; remove the duplicate (team, agent_name) entry from the roster payload " ++
      "before replace_roster"))
  else
    let writtenNames := rosterWriteDelta names proposedNames
    if writtenNames.isEmpty then .ok ()
    else
      let allCollisions := rosterUniqueNameCollisions
        (names.filter (fun persisted => decide (persisted.teamName ≠ roster.teamName)) ++ proposedNames)
      let writtenCollisionNames := (allCollisions.filter (fun collision => decide (collision ∈ writtenNames))).map
        RosterUniqueName.uniqueName
      let collisions := allCollisions.filter (fun collision => decide (collision.uniqueName ∈ writtenCollisionNames))
      if collisions.isEmpty then .ok () else .error (rosterUniqueNameCollisionError collisions)

def maxCanonicalRosterMembers : Nat := 4096

def RosterMember.row (member : RosterMember) : RosterRow :=
  ⟨(member.teamName, member.agentName), some (.object member.metadataJson)⟩

def insertRosterMember (team : TeamName) (durable : Table RosterRow.member) (member : RosterMember) :
    Except AtmError (Table RosterRow.member) :=
  if member.teamName ≠ team then
    .error (.validation (s!"roster-store replace rejected member {member.agentName.val} because team_name " ++
      s!"{member.teamName.val} did not match request team {team.val}"))
  else
    match durable.insertNew member.row with
    | some written => .ok written
    | none => .error (sqliteError "failed to replace canonical team-roster member" (.constraint .teamRosterKey))

/-- `save_roster`. With `failure` some statement of the transaction fails, which takes it back. -/
def saveRoster (failure : Option AtmError) (roster : RosterSnapshot) (durable : Table RosterRow.member) :
    Except AtmError (Table RosterRow.member) :=
  if maxCanonicalRosterMembers < roster.members.length then
    .error
      (.validation (s!"roster-store replace rejected team {roster.teamName.val} because {roster.members.length} " ++
      s!"members exceeds the canonical roster cap of {maxCanonicalRosterMembers}"))
  else
    match failure with
    | some error => .error error
    | none => do
      enforceRosterUniqueNames otherText roster durable
      roster.members.foldlM (insertRosterMember roster.teamName)
        (durable.filterRows (fun row => decide (row.member.1 ≠ roster.teamName)))

end Store

/-- The columns that a load decodes, as far as they are modelled. -/
def buildRosterMember (row : RosterRow) : Except AtmError RosterMember :=
  match row.metadata with
  | some (.object members) => .ok ⟨row.member.1, row.member.2, members⟩
  | _ => .error (.validation "failed to decode team-roster metadata")

/-- `load_roster`: the rows of a team by agent, at most one more than the cap. -/
def loadRoster (team : TeamName) (durable : Table RosterRow.member) : Except AtmError (List RosterMember) := do
  let rows := (durable.rows.insertionSort rosterRowOrder).filter (fun row => decide (row.member.1 = team))
  let members ← (rows.take (maxCanonicalRosterMembers + 1)).mapM buildRosterMember
  if maxCanonicalRosterMembers < members.length then
    .error (.validation (s!"roster-store load rejected team {team.val} because persisted roster rows exceeded the " ++
      s!"canonical cap of {maxCanonicalRosterMembers}"))
  else .ok members

/-- `list_teams`: the teams that have a row, by name. -/
def listRosterTeams (durable : Table RosterRow.member) : List TeamName :=
  ((durable.rows.insertionSort rosterRowOrder).map (fun row => row.member.1)).dedup

end AtmCore
