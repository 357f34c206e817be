import Voxera.Iam.Schemas
import Mathlib.Data.List.Dedup

/-!
# The permission catalog and `RbacEngine`
-/

namespace Voxera.Iam

/-- The members of `IamPermission` that the catalog lists. -/
inductive IamPermission where
  | VIEW_CALLS | DELETE_CALLS | MANAGE_AGENTS | MANAGE_KNOWLEDGE | MANAGE_BILLING | VIEW_AUDIT_LOGS | EXECUTE_TOOLS
  | APPROVE_WORKFLOWS | MANAGE_USERS | MANAGE_API_KEYS | MANAGE_ROLES | MANAGE_SECURITY | MANAGE_ORGANIZATION
  | VIEW_ANALYTICS
  deriving DecidableEq

namespace IamPermission

def value : IamPermission → Text
  | VIEW_CALLS => "view_calls".toList
  | DELETE_CALLS => "delete_calls".toList
  | MANAGE_AGENTS => "manage_agents".toList
  | MANAGE_KNOWLEDGE => "manage_knowledge".toList
  | MANAGE_BILLING => "manage_billing".toList
  | VIEW_AUDIT_LOGS => "view_audit_logs".toList
  | EXECUTE_TOOLS => "execute_tools".toList
  | APPROVE_WORKFLOWS => "approve_workflows".toList
  | MANAGE_USERS => "manage_users".toList
  | MANAGE_API_KEYS => "manage_api_keys".toList
  | MANAGE_ROLES => "manage_roles".toList
  | MANAGE_SECURITY => "manage_security".toList
  | MANAGE_ORGANIZATION => "manage_organization".toList
  | VIEW_ANALYTICS => "view_analytics".toList

/-- `ALL_PERMISSIONS` -/
def allPermissions : List IamPermission :=
  [VIEW_CALLS, DELETE_CALLS, MANAGE_AGENTS, MANAGE_KNOWLEDGE, MANAGE_BILLING, VIEW_AUDIT_LOGS, EXECUTE_TOOLS,
    APPROVE_WORKFLOWS, MANAGE_USERS, MANAGE_API_KEYS, MANAGE_ROLES, MANAGE_SECURITY, MANAGE_ORGANIZATION,
    VIEW_ANALYTICS]

end IamPermission

/-- `SystemRole` -/
inductive SystemRole where
  | OWNER | ADMINISTRATOR | SUPERVISOR | MANAGER | AGENT | DEVELOPER | BILLING | SECURITY_AUDITOR | VIEWER
  deriving DecidableEq

namespace SystemRole

def value : SystemRole → Text
  | OWNER => "owner".toList
  | ADMINISTRATOR => "administrator".toList
  | SUPERVISOR => "supervisor".toList
  | MANAGER => "manager".toList
  | AGENT => "agent".toList
  | DEVELOPER => "developer".toList
  | BILLING => "billing".toList
  | SECURITY_AUDITOR => "security_auditor".toList
  | VIEWER => "viewer".toList

def members : List SystemRole :=
  [OWNER, ADMINISTRATOR, SUPERVISOR, MANAGER, AGENT, DEVELOPER, BILLING, SECURITY_AUDITOR, VIEWER]

/-- The role of a slug. -/
def ofSlug (slug : Text) : Option SystemRole := members.find? (fun role => role.value == slug)

/-- `SYSTEM_ROLE_INHERITANCE` -/
def inheritance : SystemRole → List SystemRole
  | OWNER => []
  | ADMINISTRATOR => [OWNER]
  | SUPERVISOR => [MANAGER]
  | MANAGER => [AGENT]
  | AGENT => [VIEWER]
  | DEVELOPER => [VIEWER]
  | BILLING => [VIEWER]
  | SECURITY_AUDITOR => [VIEWER]
  | VIEWER => []

/-- `SYSTEM_ROLE_PERMISSIONS` -/
def permissions : SystemRole → List IamPermission
  | OWNER => IamPermission.allPermissions
  | ADMINISTRATOR => IamPermission.allPermissions.filter (· ≠ .MANAGE_ORGANIZATION)
  | SUPERVISOR =>
    [.VIEW_CALLS, .MANAGE_AGENTS, .EXECUTE_TOOLS, .APPROVE_WORKFLOWS, .VIEW_AUDIT_LOGS, .VIEW_ANALYTICS,
      .MANAGE_KNOWLEDGE]
  | MANAGER => [.VIEW_CALLS, .APPROVE_WORKFLOWS, .EXECUTE_TOOLS, .VIEW_ANALYTICS, .MANAGE_KNOWLEDGE]
  | AGENT => [.VIEW_CALLS, .EXECUTE_TOOLS, .MANAGE_KNOWLEDGE]
  | DEVELOPER => [.MANAGE_AGENTS, .MANAGE_API_KEYS, .EXECUTE_TOOLS, .VIEW_AUDIT_LOGS]
  | BILLING => [.MANAGE_BILLING, .VIEW_ANALYTICS]
  | SECURITY_AUDITOR => [.VIEW_AUDIT_LOGS, .MANAGE_SECURITY, .VIEW_CALLS]
  | VIEWER => [.VIEW_CALLS, .VIEW_ANALYTICS]

end SystemRole

/-- `RbacEngine.resolve_permissions` of a slug, as the list of the elements of the set. -/
def resolveSlug (slug : Text) : List Text :=
  match SystemRole.ofSlug slug with
  | some role => (role.permissions ++ role.inheritance.flatMap SystemRole.permissions).dedup.map IamPermission.value
  | none => []

/-- `RbacEngine.resolve_permissions` of what a token gives for a role: a key of no table, or no key at all. -/
def resolvePermissions : Json → Except IamError (List Text)
  | .string slug => .ok (resolveSlug slug)
  | .array _ | .object _ => .error .typeError
  | _ => .ok []

end Voxera.Iam
