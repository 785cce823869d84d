import Mathlib.Data.Rat.Defs

/-! The permissions manifest of a connection and its validation. -/

namespace Pinch

inductive CalendarPermission
  | none
  | freeBusyOnly
  | fullDetails
  | proposeAndBook
  deriving DecidableEq

inductive FilePermission
  | none
  | specificFolders
  | everything
  deriving DecidableEq

inductive ActionPermission
  | none
  | scoped
  | full
  deriving DecidableEq

structure SpendingCaps where
  perTransaction : Rat
  perDay : Rat
  perConnection : Rat
  deriving DecidableEq

structure CustomCategory where
  name : String
  description : String
  allowed : Bool
  deriving DecidableEq

structure PermissionsManifest where
  calendar : CalendarPermission
  files : FilePermission
  allowedFolders : Option (List String) := .none
  actions : ActionPermission
  actionScopes : Option (List String) := .none
  spending : SpendingCaps
  informationBoundaries : List String
  customCategories : List CustomCategory
  deriving DecidableEq

def defaultPermissionsManifest : PermissionsManifest where
  calendar := .none
  files := .none
  actions := .none
  spending := ⟨0, 0, 0⟩
  informationBoundaries := []
  customCategories := []

def validateManifest (m : PermissionsManifest) : List String :=
  (if m.files = .specificFolders ∧ m.allowedFolders.getD [] = [] then
    ["files is 'specific_folders' but allowedFolders is empty or undefined"] else []) ++
  (if m.actions = .scoped ∧ m.actionScopes.getD [] = [] then
    ["actions is 'scoped' but actionScopes is empty or undefined"] else []) ++
  (if m.spending.perTransaction < 0 then ["spending.perTransaction must not be negative"] else []) ++
  (if m.spending.perDay < 0 then ["spending.perDay must not be negative"] else []) ++
  (if m.spending.perConnection < 0 then ["spending.perConnection must not be negative"] else [])

theorem validateManifest_default : validateManifest defaultPermissionsManifest = [] := rfl

end Pinch
