import Winnow.Catalog

/-!
# The employee directory

The catalog of an employee directory: personal data, work, location, and performance and status.
-/

namespace Winnow.Employees

/-- The operators of a text field. -/
def textOperators : List Operator :=
  [.equals, .notEquals, .contains, .notContains, .startsWith, .endsWith]

/-- The operators of a short text field. -/
def shortTextOperators : List Operator := [.equals, .notEquals, .contains, .notContains]

/-- The operators of a field with a fixed choice of values. -/
def membershipOperators : List Operator := [.equals, .notEquals, .isIn, .notIn]

/-- The operators of a number field. -/
def numberOperators : List Operator :=
  [.equals, .notEquals, .greaterThan, .lessThan, .greaterThanOrEqual, .lessThanOrEqual, .between]

/-- The operators of a date field. -/
def dateOperators : List Operator := [.equals, .notEquals, .before, .after, .between]

/-- The departments to select from. -/
def departments : List Text :=
  ["Customer Success", "Marketing", "Operations", "Engineering", "Design", "Legal", "Finance",
   "HR", "Product", "Security", "Sales"]

/-- The definition of a field that offers no selection and is named like its definition. -/
def definition (id label description : Text) (kind : FieldKind) (operators : List Operator)
    (defaultOperator : Operator) (allowed : defaultOperator ∈ operators)
    (free : kind ≠ .select) : Definition :=
  ⟨id, label, description, kind, id, operators, defaultOperator, none, allowed,
    fun selection => absurd selection free⟩

/-- The definition of the department, which is selected from a list. -/
def department : Definition :=
  ⟨"department", "Department", "Filter by employee department", .select, "department",
    membershipOperators, .equals, some departments, by decide, by decide⟩

/-- The definitions of the directory. -/
def definitions : List Definition :=
  [definition "firstName" "First Name" "Filter by employee first name" .text
      textOperators .contains (by decide) (by decide),
    definition "lastName" "Last Name" "Filter by employee last name" .text
      textOperators .contains (by decide) (by decide),
    definition "email" "Email" "Filter by employee email address" .text
      textOperators .contains (by decide) (by decide),
    definition "phone" "Phone" "Filter by employee phone number" .text
      shortTextOperators .contains (by decide) (by decide),
    department,
    definition "position" "Position" "Filter by employee job position/title" .text
      shortTextOperators .contains (by decide) (by decide),
    definition "manager" "Manager" "Filter by employee manager" .text
      shortTextOperators .contains (by decide) (by decide),
    definition "salary" "Salary" "Filter by employee salary amount" .number
      numberOperators .greaterThanOrEqual (by decide) (by decide),
    definition "startDate" "Start Date" "Filter by employee start date" .date
      dateOperators .after (by decide) (by decide),
    definition "birthDate" "Birth Date" "Filter by employee birth date" .date
      dateOperators .before (by decide) (by decide),
    definition "city" "City" "Filter by employee city" .text
      shortTextOperators .equals (by decide) (by decide),
    definition "state" "State" "Filter by employee state" .text
      membershipOperators .equals (by decide) (by decide),
    definition "country" "Country" "Filter by employee country" .text
      [.equals, .notEquals] .equals (by decide) (by decide),
    definition "zipCode" "ZIP Code" "Filter by employee ZIP/postal code" .text
      [.equals, .notEquals, .startsWith] .startsWith (by decide) (by decide),
    definition "isActive" "Active Status" "Filter by employee active status" .boolean
      [.isTrue, .isFalse] .isTrue (by decide) (by decide),
    definition "performanceRating" "Performance Rating"
      "Filter by employee performance rating (1-5)" .number numberOperators
      .greaterThanOrEqual (by decide) (by decide),
    definition "projects" "Projects Count" "Filter by number of projects assigned" .number
      numberOperators .greaterThanOrEqual (by decide) (by decide),
    definition "vacationDays" "Vacation Days" "Filter by number of vacation days" .number
      numberOperators .greaterThanOrEqual (by decide) (by decide),
    definition "skills" "Skills" "Filter by employee skills and competencies" .array
      [.contains, .notContains, .isIn, .notIn] .contains (by decide) (by decide)]

/-- The catalog of the directory. -/
def catalog : Catalog := Catalog.ofDefinitions "EmployeeFilterRegistry" definitions

end Winnow.Employees

namespace Winnow.Catalog

/-- The catalogs that are known by name. -/
def named : List (Text × Catalog) := [("employees", Employees.catalog)]

/-- The names of the known catalogs. -/
def names : List Text := named.map (·.1)

/-- The catalog that a value names. -/
def ofName (name : Value) : Except Fault Catalog :=
  match named.find? fun c => name.equals (.text c.1) with
  | some c => .ok c.2
  | none => do .error (.unknownCatalog (← name.plainText) (commaSeparated names))

end Winnow.Catalog
