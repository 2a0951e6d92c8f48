import CatalogSearch.Http
import CatalogSearch.Main
import CatalogSearch.Proofs.CatalogFile
import CatalogSearch.Proofs.Field.Number
import CatalogSearch.Proofs.Field.Resolve
import CatalogSearch.Proofs.Paging.Clauses
import CatalogSearch.Proofs.Paging.ForwardWalk
import CatalogSearch.Proofs.Paging.OtherOrder
import CatalogSearch.Proofs.Projection.Leaves
import CatalogSearch.Proofs.Projection.Queried
import CatalogSearch.Proofs.Query.Canonical
import CatalogSearch.Proofs.Query.Numbers
import CatalogSearch.Proofs.Query.PointsInBox
import CatalogSearch.Proofs.Request.Listing
import CatalogSearch.Proofs.Request.Named
import CatalogSearch.Proofs.Request.QueryString
import CatalogSearch.Proofs.Sort.Requested
import CatalogSearch.Proofs.Store.Collections
import CatalogSearch.Proofs.Store.Strict
import CatalogSearch.Proofs.Store.LastWrite
import CatalogSearch.Proofs.Store.Scan
import CatalogSearch.Proofs.Encoding.Segment
import CatalogSearch.Proofs.Projection.PathSet
import CatalogSearch.Proofs.Catalog.CollectionPaths
import CatalogSearch.Proofs.Catalog.NavigationLinks
