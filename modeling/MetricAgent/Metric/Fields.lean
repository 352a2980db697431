import MetricAgent.Metric.FieldValue

/-!
# Field lists

The fields of a metric stay in the order in which their keys first came. A
later value of a key replaces the earlier one in its place.
-/

namespace MetricAgent

abbrev Fields := List (String × FieldValue)

namespace Fields

/-- Sets the value of a key, in its place if it has one and else at the end. -/
def insert (key : String) (value : FieldValue) : Fields → Fields
  | [] => [(key, value)]
  | (k, v) :: rest => if key = k then (k, value) :: rest else (k, v) :: insert key value rest

def insertAll (pairs : List (String × FieldValue)) (fields : Fields) : Fields :=
  pairs.foldl (fun fs p => insert p.1 p.2 fs) fields

def get? (key : String) (fields : Fields) : Option FieldValue := fields.lookup key

def ofList (pairs : List (String × FieldValue)) : Fields := insertAll pairs []

def Distinct (fields : Fields) : Prop := (fields.map Prod.fst).Nodup

instance (fields : Fields) : Decidable (Distinct fields) :=
  inferInstanceAs (Decidable (List.Nodup _))

@[simp] theorem insert_nil (key : String) (value : FieldValue) :
    insert key value [] = [(key, value)] := rfl

@[simp] theorem insertAll_nil (fields : Fields) : insertAll [] fields = fields := rfl

@[simp] theorem insertAll_cons (p : String × FieldValue) (pairs : List (String × FieldValue))
    (fields : Fields) : insertAll (p :: pairs) fields = insertAll pairs (insert p.1 p.2 fields) :=
  rfl

theorem distinct_nil : Distinct [] := List.nodup_nil

end Fields

end MetricAgent
