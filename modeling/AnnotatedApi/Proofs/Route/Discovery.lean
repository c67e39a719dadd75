import AnnotatedApi.Route.Discovery

/-! # What endpoints keep of their routes

An endpoint is made of a route, one of its methods and the annotations of its handler. Whatever the
filters and the index say, the parts that come from the route are those of the route. -/

namespace AnnotatedApi.Route

open Source

/-- The endpoint has what the route says. -/
structure Endpoint.IsOf (e : Endpoint) (route : HostRoute) : Prop where
  /-- The method is one that is documented. -/
  method : e.method ∈ documentedMethods route.methods
  uri : e.uri = route.uri
  name : e.name = route.name
  /-- Without names from the host, the placeholders of the address name the parameters. -/
  parameters : e.parameters = route.parameters.getD (placeholderNames route.uri)

variable {config : Config} {index : Index} {routes : List HostRoute} {e : Endpoint}

/-- The endpoints of a route have what the route says. -/
theorem isOf_of_mem_endpointsOf {route : HostRoute} (h : e ∈ endpointsOf config index route) :
    e.IsOf route := by
  rw [endpointsOf] at h
  split at h
  · split at h
    · obtain ⟨method, hmethod, rfl⟩ := List.mem_map.mp h
      exact ⟨hmethod, rfl, rfl, rfl⟩
    · exact absurd h List.not_mem_nil
  · exact absurd h List.not_mem_nil

/-- Every endpoint is one of a route. -/
theorem mem_endpoints_iff :
    e ∈ endpoints config index routes ↔ ∃ route ∈ routes, e ∈ endpointsOf config index route :=
  List.mem_flatMap

end AnnotatedApi.Route
